import KanoTls.Machine
import KanoTls.Lru
import KanoTls.HelloAuth

/-! Replay protection of the server: a sliding window for every session, a cache of client
randoms, and the three steps of a connection, which those of the others may come between. -/
namespace KanoTls.Replay
open Hello Uot Wire Machine Lru

def maxCounterCacheEntries : Nat := 4096
def replayRetentionSecs : Nat := 600
def maxReplayCacheEntries : Nat := 65536

/- `Instant` in nanoseconds. -/
def retention : Nat := replayRetentionSecs * 1000000000

structure SlidingWindow where
  highestSeq : Nat
  bitmap : BitVec 64
  deriving DecidableEq, Repr

namespace SlidingWindow

def new (seq : Nat) : SlidingWindow := ⟨seq,1#64⟩

def check (w : SlidingWindow) (seq : Nat) : Bool :=
  if seq > w.highestSeq then true
  else if w.highestSeq - seq ≥ 64 then false
  else (w.bitmap &&& (1#64 <<< (w.highestSeq - seq))) = 0#64

def commit (w : SlidingWindow) (seq : Nat) : Bool × SlidingWindow :=
  if seq > w.highestSeq then
    let diff := seq - w.highestSeq
    (true,⟨seq,if diff ≥ 64 then 1#64 else (w.bitmap <<< diff) ||| 1#64⟩)
  else if w.highestSeq - seq ≥ 64 then (false,w)
  else
    let bit := 1#64 <<< (w.highestSeq - seq)
    if w.bitmap &&& bit ≠ 0#64 then (false,w) else (true,{ w with bitmap := w.bitmap ||| bit })

structure Covers (w : SlidingWindow) (seq : Nat) : Prop where
  below : seq ≤ w.highestSeq
  marked : w.highestSeq - seq < 64 → w.bitmap.getLsbD (w.highestSeq - seq) = true

theorem newCovers (seq : Nat) : (new seq).Covers seq := by
  refine ⟨Nat.le_refl _,fun _ => ?_⟩
  rw [new,Nat.sub_self]
  show (1#64).getLsbD 0 = true
  decide

theorem bitSet {b : BitVec 64} {k : Nat} (small : k < 64) : b &&& (1#64 <<< k) ≠ 0#64 ↔ b.getLsbD k = true := by
  rw [← BitVec.twoPow_eq,BitVec.and_twoPow]
  constructor
  · intro nonzero
    by_contra no
    exact nonzero (if_neg no)
  · intro bit zero
    rw [if_pos bit] at zero
    have there : (BitVec.twoPow 64 k).getLsbD k = (0#64).getLsbD k := by rw [zero]
    rw [BitVec.getLsbD_twoPow] at there
    simp [small] at there

theorem commitCovered {w : SlidingWindow} {seq : Nat} (covers : w.Covers seq) : w.commit seq = (false,w) := by
  rw [commit,if_neg (Nat.not_lt.mpr covers.below)]
  by_cases far : w.highestSeq - seq ≥ 64
  · rw [if_pos far]
  · rw [if_neg far]
    exact if_pos ((bitSet (Nat.not_le.mp far)).mpr (covers.marked (Nat.not_le.mp far)))

theorem commitKeeps {w : SlidingWindow} {seq other : Nat} (covers : w.Covers other) : (w.commit seq).2.Covers other := by
  have below := covers.below
  rw [commit]
  by_cases newer : seq > w.highestSeq
  · rw [if_pos newer]
    refine ⟨by dsimp only; omega,fun near => ?_⟩
    dsimp only at near ⊢
    rw [if_neg (by omega),BitVec.getLsbD_or,BitVec.getLsbD_shiftLeft,decide_eq_true near,
      decide_eq_false (by omega),show seq - other - (seq - w.highestSeq) = w.highestSeq - other by omega,
      covers.marked (by omega)]
    rfl
  · rw [if_neg newer]
    by_cases far : w.highestSeq - seq ≥ 64
    · rw [if_pos far]
      exact covers
    · rw [if_neg far]
      dsimp only
      split
      · exact covers
      · refine ⟨below,fun near => ?_⟩
        dsimp only at near ⊢
        rw [BitVec.getLsbD_or,covers.marked near,Bool.true_or]

theorem commitTakes {w : SlidingWindow} {seq : Nat} (took : (w.commit seq).1 = true) : (w.commit seq).2.Covers seq := by
  rw [commit] at took ⊢
  by_cases newer : seq > w.highestSeq
  · rw [if_pos newer]
    refine ⟨Nat.le_refl _,fun _ => ?_⟩
    dsimp only
    rw [Nat.sub_self]
    split
    · rfl
    · rw [BitVec.getLsbD_or,show (1#64).getLsbD 0 = true from rfl,Bool.or_true]
  · rw [if_neg newer] at took ⊢
    by_cases far : w.highestSeq - seq ≥ 64
    · rw [if_pos far] at took
      contradiction
    · rw [if_neg far] at took ⊢
      dsimp only at took ⊢
      by_cases bit : w.bitmap &&& (1#64 <<< (w.highestSeq - seq)) ≠ 0#64
      · rw [if_pos bit] at took
        contradiction
      · rw [if_neg bit]
        refine ⟨Nat.not_lt.mp newer,fun near => ?_⟩
        dsimp only at near ⊢
        rw [BitVec.getLsbD_or,← BitVec.twoPow_eq,BitVec.getLsbD_twoPow]
        simp [near]

/- The window as the set of the numbers committed so far, of which it knows the greatest and those less than 64 below it. -/
structure Exact (w : SlidingWindow) (seen : Nat → Prop) : Prop where
  top : seen w.highestSeq
  most : ∀ {n}, seen n → n ≤ w.highestSeq
  marked : ∀ {n}, n ≤ w.highestSeq → w.highestSeq - n < 64 → (w.bitmap.getLsbD (w.highestSeq - n) = true ↔ seen n)

theorem oneBit (k : Nat) : (1#64).getLsbD k = true ↔ k = 0 := by
  rw [BitVec.getLsbD_one]
  simp [eq_comm]

theorem newExact (seq : Nat) : (new seq).Exact (fun n => n = seq) := by
  refine ⟨rfl,Nat.le_of_eq,?_⟩
  intro n below near
  dsimp only [new] at below near ⊢
  rw [oneBit]
  omega

theorem checkCommit (w : SlidingWindow) (seq : Nat) : w.check seq = (w.commit seq).1 := by
  rw [check,commit]
  by_cases newer : seq > w.highestSeq
  · rw [if_pos newer,if_pos newer]
  · rw [if_neg newer,if_neg newer]
    by_cases far : w.highestSeq - seq ≥ 64
    · rw [if_pos far,if_pos far]
    · rw [if_neg far,if_neg far]
      dsimp only
      by_cases bit : w.bitmap &&& (1#64 <<< (w.highestSeq - seq)) = 0#64
      · rw [if_neg (not_not_intro bit)]
        exact decide_eq_true bit
      · rw [if_pos bit]
        exact decide_eq_false bit

theorem commitRejected {w : SlidingWindow} {seq : Nat} (rejected : (w.commit seq).1 = false) : (w.commit seq).2 = w := by
  rw [commit] at rejected ⊢
  by_cases newer : seq > w.highestSeq
  · rw [if_pos newer] at rejected
    contradiction
  · rw [if_neg newer] at rejected ⊢
    by_cases far : w.highestSeq - seq ≥ 64
    · rw [if_pos far]
    · rw [if_neg far] at rejected ⊢
      dsimp only at rejected ⊢
      by_cases bit : w.bitmap &&& (1#64 <<< (w.highestSeq - seq)) ≠ 0#64
      · rw [if_pos bit]
      · rw [if_neg bit] at rejected
        contradiction

section Exactness
variable {w : SlidingWindow} {seen : Nat → Prop} {seq : Nat}

theorem commitIff (exact' : w.Exact seen) : (w.commit seq).1 = true ↔ ¬ seen seq ∧ w.highestSeq < seq + 64 := by
  rw [commit]
  by_cases newer : seq > w.highestSeq
  · rw [if_pos newer]
    refine ⟨fun _ => ⟨fun old => ?_,by omega⟩,fun _ => rfl⟩
    have below := exact'.most old
    omega
  · rw [if_neg newer]
    by_cases far : w.highestSeq - seq ≥ 64
    · rw [if_pos far]
      refine ⟨fun took => ?_,fun inside => ?_⟩
      · contradiction
      · omega
    · rw [if_neg far]
      have marked := exact'.marked (Nat.not_lt.mp newer) (Nat.not_le.mp far)
      have bit := @bitSet w.bitmap _ (Nat.not_le.mp far)
      dsimp only
      by_cases set : w.bitmap &&& (1#64 <<< (w.highestSeq - seq)) ≠ 0#64
      · rw [if_pos set]
        refine ⟨fun took => ?_,fun inside => ?_⟩
        · contradiction
        · exact absurd (marked.mp (bit.mp set)) inside.1
      · rw [if_neg set]
        exact ⟨fun _ => ⟨fun old => set (bit.mpr (marked.mpr old)),by omega⟩,fun _ => rfl⟩

theorem commitExact (exact' : w.Exact seen) (took : (w.commit seq).1 = true) :
    (w.commit seq).2.Exact (fun n => n = seq ∨ seen n) := by
  obtain ⟨fresh,inside⟩ := (commitIff exact').mp took
  rw [commit] at took ⊢
  by_cases newer : seq > w.highestSeq
  · rw [if_pos newer]
    refine ⟨.inl rfl,?_,?_⟩
    · rintro n (rfl | old)
      · exact Nat.le_refl _
      · have below := exact'.most old
        dsimp only
        omega
    · intro n below near
      dsimp only at below near ⊢
      by_cases this : n = seq
      · rw [this,Nat.sub_self]
        refine ⟨fun _ => .inl rfl,fun _ => ?_⟩
        by_cases jump : seq - w.highestSeq ≥ 64
        · rw [if_pos jump]
          rfl
        · rw [if_neg jump,BitVec.getLsbD_or,show (1#64).getLsbD 0 = true from rfl,Bool.or_true]
      · have older : ¬ n = seq → (n = seq ∨ seen n ↔ seen n) := fun other => or_iff_right other
        rw [older this]
        by_cases jump : seq - w.highestSeq ≥ 64
        · rw [if_pos jump]
          refine ⟨fun bit => ?_,fun old => ?_⟩
          · have zero := (oneBit _).mp bit
            omega
          · have below := exact'.most old
            omega
        · have one : (1#64).getLsbD (seq - n) = false := by
            rw [Bool.eq_false_iff,ne_eq,oneBit]
            omega
          rw [if_neg jump,BitVec.getLsbD_or,one,Bool.or_false,BitVec.getLsbD_shiftLeft,decide_eq_true near,Bool.true_and]
          -- The numbers between the old highest and the new one were never committed: their bits are shifted in as zeros.
          by_cases between : n > w.highestSeq
          · rw [decide_eq_true (by omega)]
            refine ⟨fun bit => ?_,fun old => ?_⟩
            · contradiction
            · have below := exact'.most old
              omega
          · rw [decide_eq_false (by omega),show seq - n - (seq - w.highestSeq) = w.highestSeq - n by omega]
            exact exact'.marked (Nat.not_lt.mp between) (by omega)
  · have near : w.highestSeq - seq < 64 := by omega
    rw [if_neg newer,if_neg (by omega)] at took ⊢
    dsimp only at took ⊢
    by_cases set : w.bitmap &&& (1#64 <<< (w.highestSeq - seq)) ≠ 0#64
    · rw [if_pos set] at took
      contradiction
    · rw [if_neg set]
      refine ⟨.inr exact'.top,?_,?_⟩
      · rintro n (rfl | old)
        · exact Nat.not_lt.mp newer
        · exact exact'.most old
      · intro n below close
        dsimp only at below close ⊢
        rw [BitVec.getLsbD_or,← BitVec.twoPow_eq,BitVec.getLsbD_twoPow,Bool.or_eq_true,exact'.marked below close]
        simp only [near,decide_true,Bool.true_and,decide_eq_true_eq]
        constructor
        · rintro (old | same)
          · exact .inr old
          · exact .inl (by omega)
        · rintro (rfl | old)
          · exact .inr rfl
          · exact .inl old

end Exactness

def commits (w : SlidingWindow) (seqs : List Nat) : SlidingWindow := seqs.foldl (fun w seq => (w.commit seq).2) w

def committed (w : SlidingWindow) : List Nat → List Nat
  | [] => []
  | seq::rest => if (w.commit seq).1 then seq::(w.commit seq).2.committed rest else (w.commit seq).2.committed rest

theorem commitsExact {w : SlidingWindow} {seen : Nat → Prop} (exact' : w.Exact seen) (seqs : List Nat) :
    (w.commits seqs).Exact (fun n => seen n ∨ n ∈ w.committed seqs) := by
  induction seqs generalizing w seen with
  | nil =>
    refine ⟨.inl exact'.top,?_,?_⟩
    · rintro n (old | none)
      · exact exact'.most old
      · exact absurd none List.not_mem_nil
    · intro n below near
      have same : n ∈ w.committed [] ↔ False := ⟨fun none => absurd none List.not_mem_nil,False.elim⟩
      rw [same,or_false]
      exact exact'.marked below near
  | cons seq rest ih =>
    rw [commits,List.foldl_cons,committed]
    cases took : (w.commit seq).1 with
    | false =>
      have more := ih exact'
      rw [if_neg Bool.false_ne_true,commitRejected took]
      exact more
    | true =>
      have more := ih (commitExact exact' took)
      rw [if_pos rfl]
      refine ⟨?_,?_,?_⟩
      · rcases more.top with (this | old) | later
        · exact .inr (List.mem_cons.mpr (.inl this))
        · exact .inl old
        · exact .inr (List.mem_cons_of_mem _ later)
      · rintro n (old | member)
        · exact more.most (.inl (.inr old))
        · rcases List.mem_cons.mp member with this | later
          · exact more.most (.inl (.inl this))
          · exact more.most (.inr later)
      · intro n below near
        have marked := more.marked below near
        rw [or_assoc,or_left_comm,← List.mem_cons] at marked
        exact marked

def highest (first : Nat) (seqs : List Nat) : Nat := seqs.foldr max first

theorem highestMem (first : Nat) (seqs : List Nat) : highest first seqs ∈ first::seqs := by
  induction seqs with
  | nil => exact List.mem_cons_self
  | cons seq rest ih =>
    show max seq (highest first rest) ∈ first::seq::rest
    by_cases larger : highest first rest ≤ seq
    · rw [Nat.max_eq_left larger]
      exact List.mem_cons_of_mem _ List.mem_cons_self
    · rw [Nat.max_eq_right (by omega)]
      rcases List.mem_cons.mp ih with same | later
      · rw [same]
        exact List.mem_cons_self
      · exact List.mem_cons_of_mem _ (List.mem_cons_of_mem _ later)

theorem highestLe (first : Nat) (seqs : List Nat) {n : Nat} (member : n ∈ first::seqs) : n ≤ highest first seqs := by
  induction seqs with
  | nil => exact Nat.le_of_eq (List.mem_singleton.mp member)
  | cons seq rest ih =>
    show n ≤ max seq (highest first rest)
    rw [List.mem_cons,List.mem_cons] at member
    rcases member with same | this | later
    · exact Nat.le_trans (ih (List.mem_cons.mpr (.inl same))) (Nat.le_max_right _ _)
    · rw [this]
      exact Nat.le_max_left _ _
    · exact Nat.le_trans (ih (List.mem_cons_of_mem _ later)) (Nat.le_max_right _ _)

theorem windowExact (first : Nat) (seqs : List Nat) (seq : Nat) :
    ((((new first).commits seqs).commit seq).1 = true ↔
      seq ∉ first::(new first).committed seqs ∧ highest first ((new first).committed seqs) < seq + 64) ∧
    ((new first).commits seqs).check seq = (((new first).commits seqs).commit seq).1 ∧
    ((((new first).commits seqs).commit seq).1 = false → (((new first).commits seqs).commit seq).2 = (new first).commits seqs) := by
  have exact' := commitsExact (newExact first) seqs
  have top : ((new first).commits seqs).highestSeq = highest first ((new first).committed seqs) := by
    refine Nat.le_antisymm (highestLe _ _ (List.mem_cons.mpr exact'.top)) ?_
    exact exact'.most (List.mem_cons.mp (highestMem first _))
  refine ⟨?_,checkCommit _ _,commitRejected⟩
  rw [commitIff exact',top,List.mem_cons]

theorem windowExactLate : (((new 100).commits [163,100,99]).commit 101).1 = true ∧
    (((new 100).commits [163,100,99]).commit 101).2.check 100 = false := by
  refine ⟨(windowExact 100 [163,100,99] 101).1.mpr ⟨by decide +kernel,by decide +kernel⟩,by decide +kernel⟩

end SlidingWindow

def counterCacheKeyContext : Bytes := ascii "kanotls-counter-cache-key-v1"

def deriveCounterCacheKey (hash : KeyedHash) (keyMaterial : Bytes) : Bytes :=
  (hash.digest counterCacheKeyContext keyMaterial).take 16

def sessionKey (hash : KeyedHash) (derivedPsk : Bytes) (sessionId : Nat) : Bytes :=
  deriveCounterCacheKey hash (derivedPsk ++ u64ToBeBytes sessionId)

structure ReplayCheck where
  cacheKey : Bytes
  sequence : Nat
  deriving DecidableEq, Repr

/- COUNTER_CACHE and REPLAY_CACHE. -/
structure Caches where
  counters : Cache Bytes SlidingWindow := ⟨maxCounterCacheEntries,[]⟩
  randoms : Cache Bytes Nat := ⟨maxReplayCacheEntries,[]⟩
  countersPoisoned : Bool := false
  randomsPoisoned : Bool := false

def checkCounterReplay (hash : KeyedHash) (derivedPsk random maskedCounter : Bytes) (c : Caches) :
    Option ReplayCheck × Caches :=
  let (sessionId,sequence) := counterOf hash derivedPsk random maskedCounter
  let cacheKey := sessionKey hash derivedPsk sessionId
  if c.countersPoisoned then (none,c)
  else
    let (window,counters) := c.counters.get cacheKey
    let c := { c with counters }
    match window with
    | some window => if window.check sequence then (some ⟨cacheKey,sequence⟩,c) else (none,c)
    | none => (some ⟨cacheKey,sequence⟩,c)

def commitCounterReplay (check : ReplayCheck) (c : Caches) : Bool × Caches :=
  if c.countersPoisoned then (false,c)
  else
    match c.counters.lookup check.cacheKey with
    | some window =>
      let (took,window) := window.commit check.sequence
      (took,{ c with counters := c.counters.promote check.cacheKey window })
    | none => (true,{ c with counters := c.counters.put check.cacheKey (.new check.sequence) })

def expired (now seenAt : Nat) : Bool := ¬ now - seenAt ≤ retention

def isReplay (now : Nat) (clientEphemeral : Bytes) (c : Caches) : Bool × Caches :=
  if clientEphemeral.length ≠ 32 then (true,c)
  else if c.randomsPoisoned then (true,c)
  else
    let randoms := c.randoms.expire (expired now)
    if randoms.contains clientEphemeral then (true,{ c with randoms })
    else (false,{ c with randoms := randoms.put clientEphemeral now })

/- One connection in `server_accept`; `psks` are those the loop has yet to try. -/
inductive Phase where
  | waiting
  | probing (fields : HelloFields) (psks : List Bytes)
  | checked (fields : HelloFields) (derivedPsk : Bytes) (check : ReplayCheck) (psks : List Bytes)
  | authenticated (fields : HelloFields) (derivedPsk : Bytes) (check : ReplayCheck)
  | accepted
  | rejected

structure Handshake where
  derivedPsk : Bytes
  sessionId : Nat
  sequence : Nat
  deriving DecidableEq, Repr

/- `passed` and `committed` only record: the random and the instant of every
`authenticate_client_hello` that succeeded, and every handshake that passed
`commit_counter_replay`. -/
structure Server where
  caches : Caches := {}
  now : Nat := 0
  conn : Nat → Phase := fun _ => .waiting
  passed : List (Bytes × Nat) := []
  committed : List Handshake := []

inductive Label where
  | tick (elapsed : Nat)
  | arrive (i : Nat) (pld : Bytes) (psks : List Bytes)
  | probe (i : Nat)
  | random (i : Nat)
  | refuse (i : Nat)
  | commit (i : Nat)
  | poisonCounters
  | poisonRandoms
  deriving DecidableEq, Repr

def Server.set (s : Server) (i : Nat) (phase : Phase) : Server :=
    { s with conn := fun j => if j = i then phase else s.conn j }

def handshakeOf (hash : KeyedHash) (derivedPsk : Bytes) (fields : HelloFields) : Handshake :=
  let counter := counterOf hash derivedPsk fields.random fields.maskedCounter
  ⟨derivedPsk,counter.1,counter.2⟩

section Step
variable (hash : KeyedHash) (reads : Bytes → Bytes → Bool)

/- One turn of the loop up to the window check; `reads` is the Noise responder. -/
def tryPsk (s : Server) (i : Nat) (fields : HelloFields) : List Bytes → Server
  | [] => s.set i .rejected
  | derivedPsk::psks =>
    match Hello.probe hash derivedPsk fields with
    | none => s.set i (.probing fields psks)
    | some found =>
      if reads derivedPsk (found.recoveredE ++ found.noiseTag) then
        let (check,caches) := checkCounterReplay hash derivedPsk fields.random fields.maskedCounter s.caches
        match check with
        | none => { s with caches }.set i (.probing fields psks)
        | some check => { s with caches }.set i (.checked fields derivedPsk check psks)
      else s.set i (.probing fields psks)

def step (s : Server) : Label → Option Server
  | .tick elapsed => some { s with now := s.now + elapsed }
  | .arrive i pld psks =>
    match s.conn i with
    | .waiting => some (s.set i ((helloFields pld).elim .rejected (fun fields => .probing fields psks)))
    | _ => none
  | .probe i =>
    match s.conn i with
    | .probing fields psks => some (tryPsk hash reads s i fields psks)
    | _ => none
  | .random i =>
    match s.conn i with
    | .checked fields derivedPsk check psks =>
      let (replayed,caches) := isReplay s.now fields.random s.caches
      if replayed then some ({ s with caches }.set i (.probing fields psks))
      else some ({ s with caches, passed := (fields.random,s.now)::s.passed }.set i (.authenticated fields derivedPsk check))
    | _ => none
  -- the name, the SNI or the session limit
  | .refuse i =>
    match s.conn i with
    | .authenticated _ _ _ => some (s.set i .rejected)
    | _ => none
  | .commit i =>
    match s.conn i with
    | .authenticated fields derivedPsk check =>
      let (took,caches) := commitCounterReplay check s.caches
      if took then
        some ({ s with caches, committed := handshakeOf hash derivedPsk fields::s.committed }.set i .accepted)
      else some ({ s with caches }.set i .rejected)
    | _ => none
  | .poisonCounters => some { s with caches := { s.caches with countersPoisoned := true } }
  | .poisonRandoms => some { s with caches := { s.caches with randomsPoisoned := true } }

/- No entry is evicted by the capacity of its cache. -/
def unevicted (s : Server) : Label → Bool
  | .random i =>
    match s.conn i with
    | .checked fields _ _ _ => (s.caches.randoms.expire (expired s.now)).roomy fields.random
    | _ => true
  | .commit i =>
    match s.conn i with
    | .authenticated _ _ check => s.caches.counters.roomy check.cacheKey
    | _ => true
  | _ => true

end Step

def Covered (c : Caches) (key : Bytes) (seq : Nat) : Prop := ∃ w, c.counters.lookup key = some w ∧ w.Covers seq

def checkOf (hash : KeyedHash) (h : Handshake) : ReplayCheck := ⟨sessionKey hash h.derivedPsk h.sessionId,h.sequence⟩

section Calls
variable {hash : KeyedHash} {c : Caches}

theorem windowChecked {derivedPsk random maskedCounter : Bytes} {check : Option ReplayCheck} {caches : Caches}
    (ran : checkCounterReplay hash derivedPsk random maskedCounter c = (check,caches)) :
    (∀ key, caches.counters.lookup key = c.counters.lookup key) ∧ caches.randoms = c.randoms ∧
    ∀ ticket, check = some ticket →
      ticket = checkOf hash ⟨derivedPsk,(counterOf hash derivedPsk random maskedCounter).1,
        (counterOf hash derivedPsk random maskedCounter).2⟩ := by
  unfold checkCounterReplay at ran
  dsimp only at ran
  by_cases poisoned : c.countersPoisoned = true
  · rw [if_pos poisoned] at ran
    cases ran
    exact ⟨fun _ => rfl,rfl,fun ticket no => by contradiction⟩
  · rw [if_neg poisoned] at ran
    have same := fun key => @Cache.lookupGet _ _ _ c.counters
      (sessionKey hash derivedPsk (counterOf hash derivedPsk random maskedCounter).1) key
    cases found : c.counters.get (sessionKey hash derivedPsk (counterOf hash derivedPsk random maskedCounter).1) with
    | mk window counters =>
      rw [found] at ran same
      cases window with
      | none =>
        cases ran
        exact ⟨same,rfl,fun ticket this => (Option.some.inj this).symm⟩
      | some window =>
        dsimp only at ran
        by_cases fits : window.check (counterOf hash derivedPsk random maskedCounter).2 = true
        · rw [if_pos fits] at ran
          cases ran
          exact ⟨same,rfl,fun ticket this => (Option.some.inj this).symm⟩
        · rw [if_neg fits] at ran
          cases ran
          exact ⟨same,rfl,fun ticket no => by contradiction⟩

theorem counterCommitted {check : ReplayCheck} {took : Bool} {caches : Caches}
    (room : c.counters.roomy check.cacheKey = true)
    (ran : commitCounterReplay check c = (took,caches)) :
    caches.randoms = c.randoms ∧ (∀ key seq, Covered c key seq → Covered caches key seq) ∧
    (took = true → Covered caches check.cacheKey check.sequence ∧ ¬ Covered c check.cacheKey check.sequence) := by
  unfold commitCounterReplay at ran
  by_cases poisoned : c.countersPoisoned = true
  · rw [if_pos poisoned] at ran
    cases ran
    exact ⟨rfl,fun _ _ => id,fun no => by contradiction⟩
  · rw [if_neg poisoned] at ran
    cases found : c.counters.lookup check.cacheKey with
    | none =>
      rw [found] at ran
      cases ran
      refine ⟨rfl,fun key seq => ?_,fun _ => ⟨⟨_,Cache.lookupPut,SlidingWindow.newCovers _⟩,?_⟩⟩
      · rintro ⟨w,there,covers⟩
        by_cases same : key = check.cacheKey
        · rw [same,found] at there
          contradiction
        · exact ⟨w,(Cache.lookupPutOther room same).trans there,covers⟩
      · rintro ⟨w,there,_⟩
        rw [found] at there
        contradiction
    | some window =>
      have takes := @SlidingWindow.commitTakes window check.sequence
      have keeps := fun other => @SlidingWindow.commitKeeps window check.sequence other
      have again := @SlidingWindow.commitCovered window check.sequence
      rw [found] at ran
      cases moved : window.commit check.sequence with
      | mk ok after =>
        rw [moved] at takes keeps again
        simp only [moved] at ran
        cases ran
        refine ⟨rfl,fun key seq => ?_,fun took => ⟨⟨_,Cache.lookupPromote,takes took⟩,?_⟩⟩
        · rintro ⟨w,there,covers⟩
          by_cases same : key = check.cacheKey
          · subst same
            rw [found] at there
            cases Option.some.inj there
            exact ⟨_,Cache.lookupPromote,keeps seq covers⟩
          · exact ⟨w,(Cache.lookupPromoteOther same).trans there,covers⟩
        · rintro ⟨w,there,covers⟩
          rw [found] at there
          cases Option.some.inj there
          exact absurd (show true = false from took.symm.trans (congrArg Prod.fst (again covers))) (by decide)

theorem randomChecked {now : Nat} {random : Bytes} {replayed : Bool} {caches : Caches}
    (room : (c.randoms.expire (expired now)).roomy random = true) (ran : isReplay now random c = (replayed,caches)) :
    caches.counters = c.counters ∧
    (∀ e ∈ c.randoms.entries, e ∉ caches.randoms.entries → retention < now - e.2) ∧
    (replayed = false → (random,now) ∈ caches.randoms.entries ∧
      ∀ seen, (random,seen) ∈ c.randoms.entries → retention < now - seen) := by
  have old {e : Bytes × Nat} (stale : expired now e.2 = true) : retention < now - e.2 :=
    Nat.not_le.mp (of_decide_eq_true stale)
  unfold isReplay at ran
  by_cases sized : random.length ≠ 32
  · rw [if_pos sized] at ran
    cases ran
    exact ⟨rfl,fun e member gone => absurd member gone,fun no => by contradiction⟩
  · rw [if_neg sized] at ran
    by_cases poisoned : c.randomsPoisoned = true
    · rw [if_pos poisoned] at ran
      cases ran
      exact ⟨rfl,fun e member gone => absurd member gone,fun no => by contradiction⟩
    · rw [if_neg poisoned] at ran
      dsimp only at ran
      cases seen : (c.randoms.expire (expired now)).contains random with
      | true =>
        rw [seen,if_pos rfl] at ran
        cases ran
        exact ⟨rfl,fun e member gone => old (Cache.expireDrops member gone),fun no => by contradiction⟩
      | false =>
        rw [seen,if_neg Bool.false_ne_true] at ran
        cases ran
        have entries := @Cache.memPut _ _ _ (c.randoms.expire (expired now)) random now room seen
        refine ⟨rfl,fun e member gone => ?_,fun _ => ⟨?_,fun time member => ?_⟩⟩
        · rw [entries] at gone
          exact old (Cache.expireDrops member (fun kept => gone (List.mem_cons_of_mem _ kept)))
        · rw [entries]
          exact List.mem_cons_self
        · refine @old (random,time) (Cache.expireDrops member (fun kept => ?_))
          rw [Cache.containsOfMem kept] at seen
          contradiction

end Calls

def Phase.Sound (hash : KeyedHash) : Phase → Prop
  | .checked fields derivedPsk check _ => check = checkOf hash (handshakeOf hash derivedPsk fields)
  | .authenticated fields derivedPsk check => check = checkOf hash (handshakeOf hash derivedPsk fields)
  | _ => True

inductive Effect (hash : KeyedHash) (s t : Server) : Prop where
  | quiet (counters : ∀ key, t.caches.counters.lookup key = s.caches.counters.lookup key)
      (randoms : t.caches.randoms = s.caches.randoms) (now : s.now ≤ t.now) (passed : t.passed = s.passed)
      (committed : t.committed = s.committed)
  | random {random : Bytes} {replayed : Bool} (room : (s.caches.randoms.expire (expired s.now)).roomy random = true)
      (ran : isReplay s.now random s.caches = (replayed,t.caches)) (now : t.now = s.now)
      (passed : t.passed = if replayed then s.passed else (random,s.now)::s.passed) (committed : t.committed = s.committed)
  | commit {h : Handshake} {took : Bool} (room : s.caches.counters.roomy (checkOf hash h).cacheKey = true)
      (ran : commitCounterReplay (checkOf hash h) s.caches = (took,t.caches)) (now : t.now = s.now)
      (passed : t.passed = s.passed) (committed : t.committed = if took then h::s.committed else s.committed)

section Moves
variable {hash : KeyedHash} {reads : Bytes → Bytes → Bool} {s t : Server} {a : Label}

theorem setSound {i : Nat} {phase : Phase} (sound : ∀ j, (s.conn j).Sound hash) (this : phase.Sound hash) :
    ∀ j, ((s.set i phase).conn j).Sound hash := by
  intro j
  show Phase.Sound hash (if j = i then phase else s.conn j)
  split
  · exact this
  · exact sound j

theorem triedPsk {i : Nat} {fields : HelloFields} {psks : List Bytes} (sound : ∀ j, (s.conn j).Sound hash)
    (ran : tryPsk hash reads s i fields psks = t) : (∀ j, (t.conn j).Sound hash) ∧ Effect hash s t := by
  subst ran
  cases psks with
  | nil => exact ⟨setSound sound trivial,.quiet (fun _ => rfl) rfl (Nat.le_refl _) rfl rfl⟩
  | cons derivedPsk psks =>
    rw [tryPsk]
    cases Hello.probe hash derivedPsk fields with
    | none => exact ⟨setSound sound trivial,.quiet (fun _ => rfl) rfl (Nat.le_refl _) rfl rfl⟩
    | some found =>
      dsimp only
      by_cases read : reads derivedPsk (found.recoveredE ++ found.noiseTag) = true
      · rw [if_pos read]
        cases ran : checkCounterReplay hash derivedPsk fields.random fields.maskedCounter s.caches with
        | mk check caches =>
          obtain ⟨counters,randoms,ticket⟩ := windowChecked ran
          dsimp only
          cases check with
          | none => exact ⟨setSound sound trivial,.quiet counters randoms (Nat.le_refl _) rfl rfl⟩
          | some check => exact ⟨setSound sound (ticket check rfl),.quiet counters randoms (Nat.le_refl _) rfl rfl⟩
      · rw [if_neg read]
        exact ⟨setSound sound trivial,.quiet (fun _ => rfl) rfl (Nat.le_refl _) rfl rfl⟩

theorem stepEffect (sound : ∀ j, (s.conn j).Sound hash) (room : unevicted s a = true)
    (moved : step hash reads s a = some t) :
    (∀ j, (t.conn j).Sound hash) ∧ Effect hash s t := by
  cases a with
  | tick elapsed =>
    cases Option.some.inj moved
    exact ⟨sound,.quiet (fun _ => rfl) rfl (Nat.le_add_right _ _) rfl rfl⟩
  | arrive i pld psks =>
    cases phase : s.conn i <;> simp only [step,phase] at moved <;> try contradiction
    cases Option.some.inj moved
    refine ⟨setSound sound ?_,.quiet (fun _ => rfl) rfl (Nat.le_refl _) rfl rfl⟩
    cases helloFields pld <;> trivial
  | probe i =>
    cases phase : s.conn i <;> simp only [step,phase] at moved <;> try contradiction
    exact triedPsk sound (Option.some.inj moved)
  | random i =>
    cases phase : s.conn i <;> simp only [step,phase] at moved <;> try contradiction
    rename_i fields derivedPsk check psks
    simp only [unevicted,phase] at room
    have ticket := sound i
    rw [phase] at ticket
    cases ran : isReplay s.now fields.random s.caches with
    | mk replayed caches =>
      rw [ran] at moved
      cases replayed with
      | true =>
        cases Option.some.inj moved
        exact ⟨setSound sound trivial,.random room ran rfl rfl rfl⟩
      | false =>
        cases Option.some.inj moved
        exact ⟨setSound sound ticket,.random room ran rfl rfl rfl⟩
  | refuse i =>
    cases phase : s.conn i <;> simp only [step,phase] at moved <;> try contradiction
    cases Option.some.inj moved
    exact ⟨setSound sound trivial,.quiet (fun _ => rfl) rfl (Nat.le_refl _) rfl rfl⟩
  | commit i =>
    cases phase : s.conn i <;> simp only [step,phase] at moved <;> try contradiction
    rename_i fields derivedPsk check
    simp only [unevicted,phase] at room
    have ticket := sound i
    rw [phase] at ticket
    cases (show check = _ from ticket)
    cases ran : commitCounterReplay (checkOf hash (handshakeOf hash derivedPsk fields)) s.caches with
    | mk took caches =>
      rw [ran] at moved
      cases took with
      | true =>
        cases Option.some.inj moved
        exact ⟨setSound sound trivial,.commit room ran rfl rfl rfl⟩
      | false =>
        cases Option.some.inj moved
        exact ⟨setSound sound trivial,.commit room ran rfl rfl rfl⟩
  | poisonCounters =>
    cases Option.some.inj moved
    exact ⟨sound,.quiet (fun _ => rfl) rfl (Nat.le_refl _) rfl rfl⟩
  | poisonRandoms =>
    cases Option.some.inj moved
    exact ⟨sound,.quiet (fun _ => rfl) rfl (Nat.le_refl _) rfl rfl⟩

end Moves

structure Inv (hash : KeyedHash) (s : Server) : Prop where
  sound : ∀ i, (s.conn i).Sound hash
  covered : ∀ h ∈ s.committed, Covered s.caches (checkOf hash h).cacheKey (checkOf hash h).sequence
  once : s.committed.Nodup
  held : ∀ p ∈ s.passed, p ∈ s.caches.randoms.entries ∨ retention < s.now - p.2
  apart : s.passed.Pairwise (fun later earlier => later.1 = earlier.1 → retention < later.2 - earlier.2)

section Runs
variable {hash : KeyedHash} {reads : Bytes → Bytes → Bool} {s t : Server} {a : Label}

theorem effectInv (inv : Inv hash s) (sound : ∀ i, (t.conn i).Sound hash) (effect : Effect hash s t) : Inv hash t := by
  cases effect with
  | quiet counters randoms now passed committed =>
    refine ⟨sound,?_,committed ▸ inv.once,?_,passed ▸ inv.apart⟩
    · rw [committed]
      intro h member
      obtain ⟨w,there,covers⟩ := inv.covered h member
      exact ⟨w,(counters _).trans there,covers⟩
    · rw [passed,randoms]
      intro p member
      exact (inv.held p member).imp_right (fun old => by omega)
  | @random random replayed room ran now passed committed =>
    obtain ⟨counters,drops,fresh⟩ := randomChecked room ran
    have kept : ∀ p ∈ s.passed, p ∈ t.caches.randoms.entries ∨ retention < t.now - p.2 := by
      intro p member
      rw [now]
      by_cases here : p ∈ t.caches.randoms.entries
      · exact .inl here
      · exact .inr ((inv.held p member).elim (fun there => drops p there here) id)
    refine ⟨sound,?_,committed ▸ inv.once,?_,?_⟩
    · rw [committed]
      intro h member
      obtain ⟨w,there,covers⟩ := inv.covered h member
      exact ⟨w,(congrArg (fun cache => Cache.lookup cache _) counters).trans there,covers⟩
    · cases replayed with
      | true => exact passed ▸ kept
      | false =>
        rw [passed]
        intro p member
        rcases List.mem_cons.mp member with rfl | member
        · exact .inl (fresh rfl).1
        · exact kept p member
    · cases replayed with
      | true => exact passed ▸ inv.apart
      | false =>
        rw [passed]
        refine List.pairwise_cons.mpr ⟨fun p member same => ?_,inv.apart⟩
        dsimp only at same ⊢
        rcases inv.held p member with there | old
        · exact (fresh rfl).2 p.2 (by rw [same]; exact there)
        · exact old
  | @commit h took room ran now passed committed =>
    obtain ⟨randoms,keeps,takes⟩ := counterCommitted room ran
    have kept : ∀ h ∈ s.committed, Covered t.caches (checkOf hash h).cacheKey (checkOf hash h).sequence :=
      fun h member => keeps _ _ (inv.covered h member)
    refine ⟨sound,?_,?_,?_,passed ▸ inv.apart⟩
    · cases took with
      | false => exact committed ▸ kept
      | true =>
        rw [committed]
        intro other member
        rcases List.mem_cons.mp member with rfl | member
        · exact (takes rfl).1
        · exact kept other member
    · cases took with
      | false => exact committed ▸ inv.once
      | true =>
        rw [committed]
        exact List.nodup_cons.mpr ⟨fun member => (takes rfl).2 (inv.covered h member),inv.once⟩
    · rw [passed,randoms,now]
      exact inv.held

theorem initialInv : Inv hash {} :=
  ⟨fun _ => trivial,fun h member => by contradiction,.nil,fun p member => by contradiction,.nil⟩

theorem reachInv (reach : Reach (step hash reads) (fun s a => unevicted s a = true) {} s) : Inv hash s := by
  refine reachInvariant initialInv (fun inv room moved => ?_) reach
  obtain ⟨sound,effect⟩ := stepEffect inv.sound room moved
  exact effectInv inv sound effect

/- In every run that evicts nothing: no handshake is committed twice, two hellos with one
random pass more than the retention apart, and no step drops a younger random. -/
theorem handshakesOnce (reach : Reach (step hash reads) (fun s a => unevicted s a = true) {} s) :
    s.committed.Nodup ∧
    s.passed.Pairwise (fun later earlier => later.1 = earlier.1 → retention < later.2 - earlier.2) ∧
    ∀ a t, unevicted s a = true → step hash reads s a = some t →
      ∀ e ∈ s.caches.randoms.entries, e ∉ t.caches.randoms.entries → retention < s.now - e.2 := by
  have inv := reachInv reach
  refine ⟨inv.once,inv.apart,fun a t room moved e member gone => ?_⟩
  obtain ⟨_,effect⟩ := stepEffect inv.sound room moved
  cases effect with
  | quiet _ randoms _ _ _ => exact absurd (randoms ▸ member) gone
  | random room ran _ _ _ => exact (randomChecked room ran).2.1 e member gone
  | commit room ran _ _ _ => exact absurd ((counterCommitted room ran).1 ▸ member) gone

end Runs

def capturedHello : Bytes :=
  ((buildClientHelloTemplate [0x61] none sampleHello).bind (fun t =>
    instantiate sampleHash t (List.replicate 32 7) (List.replicate 48 4) 0x1234567000001 sampleDraws)).getD []

/- A hello and its copy, with the last bit of the session id flipped, race through their
checks; the copy, which checks its random first, is the one that gets in. -/
theorem copyRaced : ∃ s, Reach (step sampleHash (fun _ _ => true)) (fun s a => unevicted s a = true) {} s ∧
    (s.committed.length = 1 ∧ s.passed.length = 1) ∧ s.committed.Nodup := by
  have ran : (checked (step sampleHash (fun _ _ => true)) (fun s a => unevicted s a = true) {}
      [.arrive 0 capturedHello [List.replicate 32 7],
        .arrive 1 (Patch.put capturedHello 75 [byteAt capturedHello 75 ^^^ 1]) [List.replicate 32 7],
        .probe 0,.probe 1,.random 1,.random 0,.probe 0,.tick 5,.commit 1]).any
      (fun s => s.committed.length = 1 ∧ s.passed.length = 1) = true := by
    decide +kernel
  obtain ⟨s,reach,here⟩ := checkedReaches ran
  exact ⟨s,reach,of_decide_eq_true here,(handshakesOnce reach).1⟩

end KanoTls.Replay
