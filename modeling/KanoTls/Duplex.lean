import Mathlib.Logic.Relation
import Mathlib.Order.GameAdd
import KanoTls.Machine

/-! Two parties that each read and write exactly so many bytes, joined by a stream in either
direction. A read and a write may take any number of turns; a party that fails closes its
streams, and what is written to it is lost. Neither party can see how the turns fall: all runs
come to the same end. -/
namespace KanoTls.Duplex
open Machine Relation

/- `eof` is what a read fails with when the stream ends before its bytes are there. -/
inductive Party (γ ε α : Type) where
  | done (result : α)
  | fail (error : ε)
  | read (n : Nat) (eof : ε) (next : List γ → Party γ ε α)
  | write (data : List γ) (next : Party γ ε α)

variable {γ ε δ α β : Type}

namespace Party

def bind : Party γ ε α → (α → Party γ ε β) → Party γ ε β
  | done result,rest => rest result
  | fail error,_ => fail error
  | read n eof next,rest => read n eof (fun data => (next data).bind rest)
  | write data next,rest => write data (next.bind rest)

instance : Monad (Party γ ε) where
  pure := done
  bind := bind

theorem bindAssoc {ν : Type} (p : Party γ ε α) (f : α → Party γ ε β) (g : β → Party γ ε ν) :
    p >>= f >>= g = p >>= (fun a => f a >>= g) := by
  show (p.bind f).bind g = p.bind (fun a => (f a).bind g)
  induction p with
  | done result => rfl
  | fail error => rfl
  | read n eof next ih => exact congrArg (read n eof) (funext ih)
  | write data next ih => exact congrArg (write data) ih

def closed : Party γ ε α → Bool
  | fail _ => true
  | _ => false

/- What a party makes of the bytes it is given, and what it leaves of them; `none` is that it
waits for more. -/
def alone : Party γ ε α → List γ → Option (Except ε α × List γ)
  | done result,data => some (.ok result,data)
  | fail error,data => some (.error error,data)
  | read n _ next,data => if n ≤ data.length then (next (data.take n)).alone (data.drop n) else none
  | write _ next,data => next.alone data

end Party

structure Turn (γ ε α : Type) where
  party : Party γ ε α
  inbox : List γ
  sent : List γ

/- One turn, in which a read or a write goes `k` further. -/
def turn : Party γ ε α → List γ → Bool → Nat → Option (Turn γ ε α)
  | .done _,_,_,_ => none
  | .fail _,_,_,_ => none
  | .read n eof next,inbox,closed,k =>
    if n = 0 then some ⟨next [],inbox,[]⟩
    else if 0 < k ∧ k ≤ n ∧ k ≤ inbox.length then
      some ⟨.read (n - k) eof (fun more => next (inbox.take k ++ more)),inbox.drop k,[]⟩
    else if inbox = [] ∧ closed = true then some ⟨.fail eof,[],[]⟩
    else none
  | .write data next,inbox,_,k =>
    if data = [] then some ⟨next,inbox,[]⟩
    else if 0 < k ∧ k ≤ data.length then some ⟨.write (data.drop k) next,inbox,data.take k⟩
    else none

structure Pair (γ ε δ α β : Type) where
  client : Party γ ε α
  server : Party γ δ β
  up : List γ := []
  down : List γ := []

inductive Label where
  | client (k : Nat) | server (k : Nat)

def pairStep (s : Pair γ ε δ α β) : Label → Option (Pair γ ε δ α β)
  | .client k => (turn s.client s.down s.server.closed k).map (fun t => ⟨t.party,s.server,s.up ++ t.sent,t.inbox⟩)
  | .server k => (turn s.server s.up s.client.closed k).map (fun t => ⟨s.client,t.party,t.inbox,s.down ++ t.sent⟩)

def Moves (s t : Pair γ ε δ α β) : Prop := ∃ label, pairStep s label = some t

def Runs : Pair γ ε δ α β → Pair γ ε δ α β → Prop := ReflTransGen Moves

section Turns
variable {p : Party γ ε α} {inbox more : List γ} {closed later : Bool} {j k : Nat} {t u : Turn γ ε α}

theorem turnOpen (moved : turn p inbox closed k = some t) : p.closed = false := by
  cases p <;> first | rfl | contradiction

theorem turnMore (moved : turn p inbox false k = some t) :
    turn p (inbox ++ more) later k = some { t with inbox := t.inbox ++ more } := by
  cases p with
  | done result => contradiction
  | fail error => contradiction
  | read n eof next =>
    rw [turn] at moved ⊢
    split at moved
    · rename_i none
      cases Option.some.inj moved
      exact if_pos none
    · rename_i some
      rw [if_neg some]
      split at moved
      · rename_i fits
        obtain ⟨positive,least,here⟩ := fits
        cases Option.some.inj moved
        rw [if_pos ⟨positive,least,by rw [List.length_append]; omega⟩]
        rw [List.take_append_of_le_length here,List.drop_append_of_le_length here]
      · simp at moved
  | write data next =>
    rw [turn] at moved ⊢
    split at moved
    · rename_i none
      cases Option.some.inj moved
      exact if_pos none
    · rename_i some
      rw [if_neg some]
      obtain ⟨fits,moved⟩ := Option.ite_none_right_eq_some.mp moved
      cases Option.some.inj moved
      exact if_pos fits

theorem turnLonger (short : turn p inbox closed j = some t) (long : turn p inbox closed k = some u) (less : j ≤ k) :
    t = u ∨ ∃ rest, turn t.party t.inbox closed (k - j) = some ⟨u.party,u.inbox,rest⟩ ∧ t.sent ++ rest = u.sent := by
  rcases Nat.eq_or_lt_of_le less with rfl | less
  · exact .inl (Option.some.inj (short.symm.trans long))
  have sum : j + (k - j) = k := Nat.add_sub_of_le (Nat.le_of_lt less)
  cases p with
  | done result => contradiction
  | fail error => contradiction
  | read n eof next =>
    rw [turn] at short long
    split at short
    · rename_i none
      rw [if_pos none] at long
      exact .inl (Option.some.inj (short.symm.trans long))
    · rename_i some
      rw [if_neg some] at long
      split at short
      · rename_i first
        split at long
        · rename_i second
          cases Option.some.inj short
          cases Option.some.inj long
          refine .inr ⟨[],?_,rfl⟩
          rw [turn,if_neg (by omega),if_pos ⟨by omega,by omega,by rw [List.length_drop]; omega⟩]
          simp only [← List.append_assoc,← List.take_add,List.drop_drop,Nat.sub_sub,sum]
        · obtain ⟨⟨empty,_⟩,_⟩ := Option.ite_none_right_eq_some.mp long
          rw [empty] at first
          exact absurd first.2.2 (by simp only [List.length_nil]; omega)
      · obtain ⟨ended,short⟩ := Option.ite_none_right_eq_some.mp short
        rw [if_neg (by rw [ended.1]; simp only [List.length_nil]; omega),if_pos ended] at long
        exact .inl (Option.some.inj (short.symm.trans long))
  | write data next =>
    rw [turn] at short long
    split at short
    · rename_i none
      rw [if_pos none] at long
      exact .inl (Option.some.inj (short.symm.trans long))
    · rename_i some
      rw [if_neg some] at long
      obtain ⟨⟨positive,least⟩,short⟩ := Option.ite_none_right_eq_some.mp short
      obtain ⟨⟨_,most⟩,long⟩ := Option.ite_none_right_eq_some.mp long
      cases Option.some.inj short
      cases Option.some.inj long
      refine .inr ⟨(data.drop j).take (k - j),?_,by rw [← List.take_add,sum]⟩
      rw [turn,if_neg (by rw [List.drop_eq_nil_iff]; omega),if_pos ⟨by omega,by rw [List.length_drop]; omega⟩]
      rw [List.drop_drop,sum]

end Turns

section Confluence
variable {s t u start finish : Pair γ ε δ α β}

theorem clientMove {k : Nat} {turned : Turn γ ε α} (moved : turn s.client s.down s.server.closed k = some turned) :
    Moves s ⟨turned.party,s.server,s.up ++ turned.sent,turned.inbox⟩ := by
  refine ⟨.client k,?_⟩
  rw [pairStep,moved]
  rfl

theorem serverMove {k : Nat} {turned : Turn γ δ β} (moved : turn s.server s.up s.client.closed k = some turned) :
    Moves s ⟨s.client,turned.party,turned.inbox,s.down ++ turned.sent⟩ := by
  refine ⟨.server k,?_⟩
  rw [pairStep,moved]
  rfl

theorem turnsExchange {j k : Nat} {one : Turn γ ε α} {two : Turn γ δ β} (first : turn s.client s.down s.server.closed j = some one)
    (second : turn s.server s.up s.client.closed k = some two) :
    ∃ v, Moves ⟨one.party,s.server,s.up ++ one.sent,one.inbox⟩ v ∧ Moves ⟨s.client,two.party,two.inbox,s.down ++ two.sent⟩ v := by
  refine ⟨⟨one.party,two.party,two.inbox ++ one.sent,one.inbox ++ two.sent⟩,?_,?_⟩
  · rw [turnOpen first] at second
    exact serverMove (s := ⟨one.party,s.server,s.up ++ one.sent,one.inbox⟩) (turnMore second)
  · rw [turnOpen second] at first
    exact clientMove (s := ⟨s.client,two.party,two.inbox,s.down ++ two.sent⟩) (turnMore first)

theorem clientTurns {j k : Nat} {one two : Turn γ ε α} (first : turn s.client s.down s.server.closed j = some one)
    (second : turn s.client s.down s.server.closed k = some two) (less : j ≤ k) :
    ReflGen Moves ⟨one.party,s.server,s.up ++ one.sent,one.inbox⟩ ⟨two.party,s.server,s.up ++ two.sent,two.inbox⟩ := by
  obtain rfl | ⟨rest,next,same⟩ := turnLonger first second less
  · exact .refl
  · rw [← same,← List.append_assoc]
    exact .single (clientMove (s := ⟨one.party,s.server,s.up ++ one.sent,one.inbox⟩) next)

theorem serverTurns {j k : Nat} {one two : Turn γ δ β} (first : turn s.server s.up s.client.closed j = some one)
    (second : turn s.server s.up s.client.closed k = some two) (less : j ≤ k) :
    ReflGen Moves ⟨s.client,one.party,one.inbox,s.down ++ one.sent⟩ ⟨s.client,two.party,two.inbox,s.down ++ two.sent⟩ := by
  obtain rfl | ⟨rest,next,same⟩ := turnLonger first second less
  · exact .refl
  · rw [← same,← List.append_assoc]
    exact .single (serverMove (s := ⟨s.client,one.party,one.inbox,s.down ++ one.sent⟩) next)

theorem movesDiamond (one : Moves s t) (two : Moves s u) : ∃ v, ReflGen Moves t v ∧ ReflGen Moves u v := by
  obtain ⟨one,one'⟩ := one
  obtain ⟨two,two'⟩ := two
  cases one with
  | client j =>
    obtain ⟨t,first,rfl⟩ := Option.map_eq_some_iff.mp one'
    cases two with
    | client k =>
      obtain ⟨u,second,rfl⟩ := Option.map_eq_some_iff.mp two'
      rcases Nat.le_total j k with less | less
      · exact ⟨_,clientTurns first second less,.refl⟩
      · exact ⟨_,.refl,clientTurns second first less⟩
    | server k =>
      obtain ⟨u,second,rfl⟩ := Option.map_eq_some_iff.mp two'
      obtain ⟨v,left,right⟩ := turnsExchange first second
      exact ⟨v,.single left,.single right⟩
  | server j =>
    obtain ⟨t,first,rfl⟩ := Option.map_eq_some_iff.mp one'
    cases two with
    | client k =>
      obtain ⟨u,second,rfl⟩ := Option.map_eq_some_iff.mp two'
      obtain ⟨v,left,right⟩ := turnsExchange second first
      exact ⟨v,.single right,.single left⟩
    | server k =>
      obtain ⟨u,second,rfl⟩ := Option.map_eq_some_iff.mp two'
      rcases Nat.le_total j k with less | less
      · exact ⟨_,serverTurns first second less,.refl⟩
      · exact ⟨_,.refl,serverTurns second first less⟩

def AtRest (s : Pair γ ε δ α β) : Prop := ∀ t, ¬ Moves s t

theorem runsMeet (ended : Runs start finish) (rest : AtRest finish) (run : Runs start s) : Runs s finish := by
  have diamond : ∀ a b c : Pair γ ε δ α β, Moves a b → Moves a c → ∃ d, ReflGen Moves b d ∧ ReflTransGen Moves c d := by
    intro a b c one two
    obtain ⟨d,left,right⟩ := movesDiamond one two
    exact ⟨d,left,right.to_reflTransGen⟩
  obtain ⟨v,left,right⟩ := church_rosser diamond ended run
  rcases left.cases_head with rfl | ⟨w,first,_⟩
  · exact right
  · exact absurd first (rest w)

def Follows (p q : Party γ ε α) : Prop := ∃ inbox closed k t, turn q inbox closed k = some t ∧ t.party = p

theorem partyFails (error : ε) : Acc Follows (.fail error : Party γ ε α) := by
  refine ⟨_,?_⟩
  rintro _ ⟨inbox,closed,k,t,moved,rfl⟩
  contradiction

theorem partyEnds (p : Party γ ε α) : Acc Follows p := by
  induction p with
  | done result =>
    refine ⟨_,?_⟩
    rintro _ ⟨inbox,closed,k,t,moved,rfl⟩
    contradiction
  | fail error => exact partyFails error
  | read n eof next ih =>
    induction n using Nat.strongRecOn generalizing next with
    | ind n less =>
      refine ⟨_,?_⟩
      rintro _ ⟨inbox,closed,k,t,moved,rfl⟩
      rw [turn] at moved
      split at moved
      · cases Option.some.inj moved
        exact ih []
      · split at moved
        · cases Option.some.inj moved
          exact less (n - k) (by omega) _ (fun more => ih _)
        · obtain ⟨_,moved⟩ := Option.ite_none_right_eq_some.mp moved
          cases Option.some.inj moved
          exact partyFails eof
  | write data next ih =>
    induction length : data.length using Nat.strongRecOn generalizing data with
    | ind n less =>
      refine ⟨_,?_⟩
      rintro _ ⟨inbox,closed,k,t,moved,rfl⟩
      rw [turn] at moved
      split at moved
      · cases Option.some.inj moved
        exact ih
      · obtain ⟨⟨positive,least⟩,moved⟩ := Option.ite_none_right_eq_some.mp moved
        cases Option.some.inj moved
        exact less _ (by rw [List.length_drop]; omega) (data.drop k) rfl

theorem pairEnds (s : Pair γ ε δ α β) : Acc (fun t s => Moves s t) s := by
  have parties : Acc (InvImage (Prod.GameAdd Follows Follows) (fun s : Pair γ ε δ α β => (s.client,s.server))) s :=
    InvImage.accessible _ ((partyEnds s.client).prod_gameAdd (partyEnds s.server))
  refine Subrelation.accessible ?_ parties
  rintro t s ⟨label,moved⟩
  cases label with
  | client k =>
    obtain ⟨t,turned,rfl⟩ := Option.map_eq_some_iff.mp moved
    exact .fst ⟨_,_,_,_,turned,rfl⟩
  | server k =>
    obtain ⟨t,turned,rfl⟩ := Option.map_eq_some_iff.mp moved
    exact .snd ⟨_,_,_,_,turned,rfl⟩

theorem reachRuns {ok : Pair γ ε δ α β → Label → Prop} (reach : Reach pairStep ok start s) : Runs start s := by
  induction reach with
  | start => exact .refl
  | next _ _ moved ih => exact ih.tail ⟨_,moved⟩

/- A run that has one end comes to it, whatever order its turns take and however reads and
writes are split. -/
theorem inevitablyEnds (ended : Runs start finish) (rest : AtRest finish) (run : Runs start s) :
    s = finish ∨ Inevitable pairStep (fun _ => True) (fun _ t => t = finish) s := by
  induction pairEnds s with
  | intro s _ ih =>
    rcases (runsMeet ended rest run).cases_head with rfl | ⟨t,⟨label,moved⟩,_⟩
    · exact .inl rfl
    · refine .inr ⟨⟨label,t,trivial,moved⟩,?_⟩
      intro other u _ moves unfinished
      exact (ih u ⟨other,moves⟩ (run.tail ⟨other,moves⟩)).resolve_left unfinished

end Confluence

section Calls
variable {client : Party γ ε α} {server : Party γ δ β} {up down data rest : List γ}

theorem clientWrites (up : List γ) (data : List γ) : Runs ⟨.write data client,server,up,down⟩ ⟨client,server,up ++ data,down⟩ := by
  have last (up : List γ) : Runs ⟨.write [] client,server,up,down⟩ ⟨client,server,up,down⟩ := by
    refine .single ⟨.client 0,?_⟩
    rw [pairStep,turn,if_pos rfl,Option.map_some,List.append_nil]
  by_cases none : data = []
  · rw [none,List.append_nil]
    exact last up
  · refine .head ⟨.client data.length,?_⟩ (last (up ++ data))
    rw [pairStep,turn,if_neg none,if_pos ⟨List.length_pos_iff.mpr none,Nat.le_refl _⟩,Option.map_some,List.drop_length,List.take_length]

theorem serverWrites (down : List γ) (data : List γ) : Runs ⟨client,.write data server,up,down⟩ ⟨client,server,up,down ++ data⟩ := by
  have last (down : List γ) : Runs ⟨client,.write [] server,up,down⟩ ⟨client,server,up,down⟩ := by
    refine .single ⟨.server 0,?_⟩
    rw [pairStep,turn,if_pos rfl,Option.map_some,List.append_nil]
  by_cases none : data = []
  · rw [none,List.append_nil]
    exact last down
  · refine .head ⟨.server data.length,?_⟩ (last (down ++ data))
    rw [pairStep,turn,if_neg none,if_pos ⟨List.length_pos_iff.mpr none,Nat.le_refl _⟩,Option.map_some,List.drop_length,List.take_length]

theorem clientReads (data rest : List γ) {n : Nat} {eof : ε} {next : List γ → Party γ ε α} (length : data.length = n) :
    Runs ⟨.read n eof next,server,up,data ++ rest⟩ ⟨next data,server,up,rest⟩ := by
  subst length
  have last (next : List γ → Party γ ε α) : Runs ⟨.read 0 eof next,server,up,rest⟩ ⟨next [],server,up,rest⟩ := by
    refine .single ⟨.client 0,?_⟩
    rw [pairStep,turn,if_pos rfl,Option.map_some,List.append_nil]
  by_cases none : data = []
  · subst none
    exact last next
  · refine .head ⟨.client data.length,?_⟩ (List.append_nil data ▸ last (fun more => next (data ++ more)))
    have fits : 0 < data.length ∧ data.length ≤ data.length ∧ data.length ≤ (data ++ rest).length :=
      ⟨List.length_pos_iff.mpr none,Nat.le_refl _,by rw [List.length_append]; omega⟩
    rw [pairStep,turn,if_neg (Nat.ne_of_gt fits.1),if_pos fits,Option.map_some,List.take_left,List.drop_left,Nat.sub_self,
      List.append_nil]

theorem serverReads (data rest : List γ) {n : Nat} {eof : δ} {next : List γ → Party γ δ β} (length : data.length = n) :
    Runs ⟨client,.read n eof next,data ++ rest,down⟩ ⟨client,next data,rest,down⟩ := by
  subst length
  have last (next : List γ → Party γ δ β) : Runs ⟨client,.read 0 eof next,rest,down⟩ ⟨client,next [],rest,down⟩ := by
    refine .single ⟨.server 0,?_⟩
    rw [pairStep,turn,if_pos rfl,Option.map_some,List.append_nil]
  by_cases none : data = []
  · subst none
    exact last next
  · refine .head ⟨.server data.length,?_⟩ (List.append_nil data ▸ last (fun more => next (data ++ more)))
    have fits : 0 < data.length ∧ data.length ≤ data.length ∧ data.length ≤ (data ++ rest).length :=
      ⟨List.length_pos_iff.mpr none,Nat.le_refl _,by rw [List.length_append]; omega⟩
    rw [pairStep,turn,if_neg (Nat.ne_of_gt fits.1),if_pos fits,Option.map_some,List.take_left,List.drop_left,Nat.sub_self,
      List.append_nil]

theorem clientEof {n : Nat} {eof : ε} {error : δ} {next : List γ → Party γ ε α} (positive : 0 < n) :
    Runs ⟨.read n eof next,.fail error,up,[]⟩ (⟨.fail eof,.fail error,up,[]⟩ : Pair γ ε δ α β) := by
  refine .single ⟨.client 0,?_⟩
  rw [pairStep,turn,if_neg (Nat.ne_of_gt positive),if_neg (by omega),if_pos ⟨rfl,rfl⟩,Option.map_some,List.append_nil]

theorem serverEof {n : Nat} {eof : δ} {error : ε} {next : List γ → Party γ δ β} (positive : 0 < n) :
    Runs ⟨.fail error,.read n eof next,[],down⟩ (⟨.fail error,.fail eof,[],down⟩ : Pair γ ε δ α β) := by
  refine .single ⟨.server 0,?_⟩
  rw [pairStep,turn,if_neg (Nat.ne_of_gt positive),if_neg (by omega),if_pos ⟨rfl,rfl⟩,Option.map_some,List.append_nil]

def Party.ended : Party γ ε α → Bool
  | .done _ => true
  | .fail _ => true
  | _ => false

theorem endedAtRest {s : Pair γ ε δ α β} (client : s.client.ended = true) (server : s.server.ended = true) : AtRest s := by
  obtain ⟨first,second,up,down⟩ := s
  rintro t ⟨label,moved⟩
  cases label with
  | client k => cases first <;> contradiction
  | server k => cases second <;> contradiction

theorem waitsAtRest {n : Nat} {eof : ε} {next : List γ → Party γ ε α} {result : β} (positive : 0 < n) :
    AtRest (⟨.read n eof next,.done result,up,[]⟩ : Pair γ ε δ α β) := by
  rintro t ⟨label,moved⟩
  cases label with
  | client k =>
    rw [pairStep,turn,if_neg (Nat.ne_of_gt positive),if_neg (by rw [List.length_nil]; omega),if_neg (by rintro ⟨_,_⟩; contradiction)] at moved
    contradiction
  | server k => contradiction

end Calls

end KanoTls.Duplex
