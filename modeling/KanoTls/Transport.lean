import KanoTls.Record

/-! `NoiseTransport`: a cipher without state and two counters outside it, against a transport
that keeps the counters itself. The cipher is a parameter. -/
namespace KanoTls.Transport
open Wire Record

variable {Key Error : Type}

/- The length written or an error, and the output slice as the call leaves it. -/
abbrev Answer (Error : Type) := Except Error Nat × Bytes

structure Cipher (Key Error : Type) where
  encrypt : Key → Nat → Bytes → Bytes → Answer Error
  decrypt : Key → Nat → Bytes → Bytes → Answer Error

def lastNonce : Nat := 2^64 - 1

structure Cipher.RefusesLast (cipher : Cipher Key Error) : Prop where
  encrypt : ∀ key input out, ∃ e, (cipher.encrypt key lastNonce input out).1 = .error e
  decrypt : ∀ key input out, ∃ e, (cipher.decrypt key lastNonce input out).1 = .error e

/- The keys of the two directions; the shared state never changes. -/
structure StatelessTransportState (Key : Type) where
  sending : Key
  receiving : Key
  deriving DecidableEq, Repr

structure NoiseSender (Key : Type) where
  state : StatelessTransportState Key
  nonce : Nat
  deriving DecidableEq, Repr

structure NoiseReceiver (Key : Type) where
  state : StatelessTransportState Key
  nonce : Nat
  deriving DecidableEq, Repr

structure NoiseTransport (Key : Type) where
  sender : NoiseSender Key
  receiver : NoiseReceiver Key
  deriving DecidableEq, Repr

def NoiseSender.writeMessage (cipher : Cipher Key Error) (s : NoiseSender Key) (payload message : Bytes) :
    Answer Error × NoiseSender Key :=
  let answer := cipher.encrypt s.state.sending s.nonce payload message
  match answer.1 with
  | .error _ => (answer,s)
  | .ok _ => (answer,{ s with nonce := bump s.nonce })

def NoiseReceiver.readMessage (cipher : Cipher Key Error) (r : NoiseReceiver Key) (message payload : Bytes) :
    Answer Error × NoiseReceiver Key :=
  let answer := cipher.decrypt r.state.receiving r.nonce message payload
  match answer.1 with
  | .error _ => (answer,r)
  | .ok _ => (answer,{ r with nonce := bump r.nonce })

namespace NoiseTransport

def new (state : StatelessTransportState Key) : NoiseTransport Key := ⟨⟨state,0⟩,⟨state,0⟩⟩

def writeMessage (cipher : Cipher Key Error) (t : NoiseTransport Key) (payload message : Bytes) :
    Answer Error × NoiseTransport Key :=
  let done := t.sender.writeMessage cipher payload message
  (done.1,{ t with sender := done.2 })

def readMessage (cipher : Cipher Key Error) (t : NoiseTransport Key) (message payload : Bytes) :
    Answer Error × NoiseTransport Key :=
  let done := t.receiver.readMessage cipher message payload
  (done.1,{ t with receiver := done.2 })

def split (t : NoiseTransport Key) : NoiseSender Key × NoiseReceiver Key := (t.sender,t.receiver)

end NoiseTransport

inductive Call where
  | write (payload message : Bytes)
  | read (message payload : Bytes)
  deriving DecidableEq, Repr

def NoiseTransport.call (cipher : Cipher Key Error) (t : NoiseTransport Key) : Call → Answer Error × NoiseTransport Key
  | .write payload message => t.writeMessage cipher payload message
  | .read message payload => t.readMessage cipher message payload

/- After `split` each half is called on its own; a list of calls is one order of them. -/
def callHalves (cipher : Cipher Key Error) (halves : NoiseSender Key × NoiseReceiver Key) :
    Call → Answer Error × NoiseSender Key × NoiseReceiver Key
  | .write payload message =>
    let done := halves.1.writeMessage cipher payload message
    (done.1,done.2,halves.2)
  | .read message payload =>
    let done := halves.2.readMessage cipher message payload
    (done.1,halves.1,done.2)

/- The transport that keeps its counters. -/
structure TransportState (Key : Type) where
  sending : Key
  receiving : Key
  sent : Nat
  received : Nat
  deriving DecidableEq, Repr

def TransportState.new (state : StatelessTransportState Key) : TransportState Key := ⟨state.sending,state.receiving,0,0⟩

def TransportState.call (cipher : Cipher Key Error) (t : TransportState Key) : Call → Answer Error × TransportState Key
  | .write payload message =>
    let answer := cipher.encrypt t.sending t.sent payload message
    match answer.1 with
    | .error _ => (answer,t)
    | .ok _ => (answer,{ t with sent := t.sent + 1 })
  | .read message payload =>
    let answer := cipher.decrypt t.receiving t.received message payload
    match answer.1 with
    | .error _ => (answer,t)
    | .ok _ => (answer,{ t with received := t.received + 1 })

def Call.seals (answer : Answer Error) : Call → Bool
  | .write _ _ => answer.1.isOk
  | .read _ _ => false

structure Log (Error : Type) where
  answers : List (Answer Error) := []
  nonces : List Nat := []

section Runs
variable {σ τ : Type} (call : σ → Call → Answer Error × σ) (nonce : σ → Nat)

def logged (s : σ) (c : Call) (rest : Log Error) : Log Error :=
  ⟨(call s c).1::rest.answers,if c.seals (call s c).1 then nonce s::rest.nonces else rest.nonces⟩

def run : σ → List Call → Log Error × σ
  | s,[] => ({},s)
  | s,c::rest =>
    let later := run (call s c).2 rest
    (logged call nonce s c later.1,later.2)

variable {call nonce} {call' : τ → Call → Answer Error × τ} {nonce' : τ → Nat} {rel : σ → τ → Prop}

theorem runSimulates (same : ∀ {s t}, rel s t → nonce s = nonce' t)
    (steps : ∀ {s t c}, rel s t → (call s c).1 = (call' t c).1 ∧ rel (call s c).2 (call' t c).2)
    (calls : List Call) {s : σ} {t : τ} (related : rel s t) :
    (run call nonce s calls).1 = (run call' nonce' t calls).1 ∧ rel (run call nonce s calls).2 (run call' nonce' t calls).2 := by
  induction calls generalizing s t with
  | nil => exact ⟨rfl,related⟩
  | cons c rest ih =>
    obtain ⟨answers,next⟩ := @steps s t c related
    obtain ⟨logs,final⟩ := ih next
    refine ⟨?_,final⟩
    rw [run,run]
    dsimp only
    rw [logged,logged,answers,logs,same related]

theorem runAppend (front back : List Call) (s : σ) : (run call nonce s (front ++ back)).1 =
    ⟨(run call nonce s front).1.answers ++ (run call nonce (run call nonce s front).2 back).1.answers,
      (run call nonce s front).1.nonces ++ (run call nonce (run call nonce s front).2 back).1.nonces⟩ := by
  induction front generalizing s with
  | nil => rfl
  | cons c rest ih =>
    rw [List.cons_append,run,run]
    dsimp only
    rw [logged,ih,logged]
    dsimp only
    by_cases seals : c.seals (call s c).1 = true
    · rw [if_pos seals,if_pos seals]
      rfl
    · rw [if_neg seals,if_neg seals]
      rfl

end Runs

def session (cipher : Cipher Key Error) (state : StatelessTransportState Key) (before after : List Call) : Log Error :=
  let first := run (NoiseTransport.call cipher) (·.sender.nonce) (.new state) before
  let second := run (callHalves cipher) (·.1.nonce) first.2.split after
  ⟨first.1.answers ++ second.1.answers,first.1.nonces ++ second.1.nonces⟩

section Counters
variable {cipher : Cipher Key Error} {sender : NoiseSender Key} {receiver : NoiseReceiver Key} {t : TransportState Key}

structure Same (sender : NoiseSender Key) (receiver : NoiseReceiver Key) (t : TransportState Key) : Prop where
  sending : sender.state.sending = t.sending
  receiving : receiver.state.receiving = t.receiving
  sent : sender.nonce = t.sent
  received : receiver.nonce = t.received
  sentMost : t.sent ≤ lastNonce
  receivedMost : t.received ≤ lastNonce

theorem newSame (state : StatelessTransportState Key) : Same ⟨state,0⟩ ⟨state,0⟩ (.new state) :=
  ⟨rfl,rfl,rfl,rfl,Nat.zero_le _,Nat.zero_le _⟩

theorem bumped {n : Nat} (most : n ≤ lastNonce) (other : n ≠ lastNonce) : bump n = n + 1 ∧ n + 1 ≤ lastNonce := by
  rw [lastNonce] at most other ⊢
  rw [bump]
  omega

theorem writeSame (refuses : cipher.RefusesLast) (same : Same sender receiver t) (payload message : Bytes) :
    (sender.writeMessage cipher payload message).1 = (t.call cipher (.write payload message)).1 ∧
      Same (sender.writeMessage cipher payload message).2 receiver (t.call cipher (.write payload message)).2 := by
  rw [NoiseSender.writeMessage,TransportState.call,same.sending,same.sent]
  cases result : (cipher.encrypt t.sending t.sent payload message).1 with
  | error e => exact ⟨rfl,same⟩
  | ok len =>
    have other : t.sent ≠ lastNonce := by
      intro last
      obtain ⟨e,refused⟩ := refuses.encrypt t.sending payload message
      rw [last,refused] at result
      contradiction
    obtain ⟨plus,most⟩ := bumped same.sentMost other
    exact ⟨rfl,same.sending,same.receiving,plus,same.received,most,same.receivedMost⟩

theorem readSame (refuses : cipher.RefusesLast) (same : Same sender receiver t) (message payload : Bytes) :
    (receiver.readMessage cipher message payload).1 = (t.call cipher (.read message payload)).1 ∧
      Same sender (receiver.readMessage cipher message payload).2 (t.call cipher (.read message payload)).2 := by
  rw [NoiseReceiver.readMessage,TransportState.call,same.receiving,same.received]
  cases result : (cipher.decrypt t.receiving t.received message payload).1 with
  | error e => exact ⟨rfl,same⟩
  | ok len =>
    have other : t.received ≠ lastNonce := by
      intro last
      obtain ⟨e,refused⟩ := refuses.decrypt t.receiving message payload
      rw [last,refused] at result
      contradiction
    obtain ⟨plus,most⟩ := bumped same.receivedMost other
    exact ⟨rfl,same.sending,same.receiving,same.sent,plus,same.sentMost,most⟩

theorem wholeRun (refuses : cipher.RefusesLast) (calls : List Call) {w : NoiseTransport Key}
    (same : Same w.sender w.receiver t) :
    (run (NoiseTransport.call cipher) (·.sender.nonce) w calls).1 = (run (TransportState.call cipher) (·.sent) t calls).1 ∧
      Same (run (NoiseTransport.call cipher) (·.sender.nonce) w calls).2.sender
        (run (NoiseTransport.call cipher) (·.sender.nonce) w calls).2.receiver (run (TransportState.call cipher) (·.sent) t calls).2 := by
  refine @runSimulates Error _ _ _ _ _ _ (fun w t => Same w.sender w.receiver t) (fun same => same.sent) ?_ calls w t same
  intro w t c same
  cases c with
  | write payload message => exact writeSame refuses same payload message
  | read message payload => exact readSame refuses same message payload

theorem halvesRun (refuses : cipher.RefusesLast) (calls : List Call) {h : NoiseSender Key × NoiseReceiver Key}
    (same : Same h.1 h.2 t) :
    (run (callHalves cipher) (·.1.nonce) h calls).1 = (run (TransportState.call cipher) (·.sent) t calls).1 := by
  refine (@runSimulates Error _ _ _ _ _ _ (fun h t => Same h.1 h.2 t) (fun same => same.sent) ?_ calls h t same).1
  intro h t c same
  cases c with
  | write payload message => exact writeSame refuses same payload message
  | read message payload => exact readSame refuses same message payload

theorem noncesIncrease (cipher : Cipher Key Error) (calls : List Call) (t : TransportState Key) :
    (run (TransportState.call cipher) (·.sent) t calls).1.nonces =
      List.range' t.sent (run (TransportState.call cipher) (·.sent) t calls).1.nonces.length := by
  induction calls generalizing t with
  | nil => rfl
  | cons c rest ih =>
    rw [run]
    dsimp only
    rw [logged]
    cases c with
    | write payload message =>
      cases result : (cipher.encrypt t.sending t.sent payload message).1 with
      | error e =>
        have step : t.call cipher (.write payload message) = (cipher.encrypt t.sending t.sent payload message,t) := by
          rw [TransportState.call]
          rw [result]
        have fails : (Call.write payload message).seals (cipher.encrypt t.sending t.sent payload message) = false := by
          rw [Call.seals,result]
          rfl
        rw [step,fails,if_neg Bool.false_ne_true]
        exact ih t
      | ok len =>
        have step : t.call cipher (.write payload message) =
            (cipher.encrypt t.sending t.sent payload message,{ t with sent := t.sent + 1 }) := by
          rw [TransportState.call]
          rw [result]
        have seals : (Call.write payload message).seals (cipher.encrypt t.sending t.sent payload message) = true := by
          rw [Call.seals,result]
          rfl
        rw [step,seals,if_pos rfl,List.length_cons,List.range'_succ]
        exact congrArg (List.cons t.sent) (ih { t with sent := t.sent + 1 })
    | read message payload =>
      have kept : (t.call cipher (.read message payload)).2.sent = t.sent := by
        rw [TransportState.call]
        cases (cipher.decrypt t.receiving t.received message payload).1 with
        | error e => rfl
        | ok len => rfl
      have later := ih (t.call cipher (.read message payload)).2
      rw [kept] at later
      exact later

end Counters

theorem externalNonces {cipher : Cipher Key Error} (refuses : cipher.RefusesLast) (state : StatelessTransportState Key)
    (before after : List Call) :
    session cipher state before after = (run (TransportState.call cipher) (·.sent) (.new state) (before ++ after)).1 ∧
      (session cipher state before after).nonces.Nodup := by
  obtain ⟨first,kept⟩ := wholeRun refuses before (show Same (NoiseTransport.new state).sender (NoiseTransport.new state).receiver
    (TransportState.new state) from newSame state)
  have second := @halvesRun Key Error cipher _ refuses after (NoiseTransport.split _) kept
  have same : session cipher state before after = (run (TransportState.call cipher) (·.sent) (.new state) (before ++ after)).1 := by
    rw [session,runAppend]
    rw [first,second]
  refine ⟨same,?_⟩
  rw [same,noncesIncrease]
  exact List.nodup_range'

def sampleTag (key : UInt8) (n : Nat) : Bytes := List.replicate 15 key ++ [UInt8.ofNat n]

def sampleCipher : Cipher UInt8 Unit where
  encrypt key n input out :=
    if n = lastNonce ∨ out.length < input.length + 16 then (.error (),out)
    else (.ok (input.length + 16),input.map (· + key) ++ sampleTag key n ++ out.drop (input.length + 16))
  decrypt key n input out :=
    if n = lastNonce ∨ input.length < 16 ∨ out.length + 16 < input.length ∨ input.drop (input.length - 16) ≠ sampleTag key n then
      (.error (),out)
    else (.ok (input.length - 16),(input.take (input.length - 16)).map (· - key) ++ out.drop (input.length - 16))

theorem sampleRefuses : sampleCipher.RefusesLast :=
  ⟨fun _ _ _ => ⟨(),by rw [sampleCipher]; dsimp only; rw [if_pos (.inl rfl)]⟩,
    fun _ _ _ => ⟨(),by rw [sampleCipher]; dsimp only; rw [if_pos (.inl rfl)]⟩⟩

def sampleBefore : List Call :=
  [.write [7] (List.replicate 17 0),.write [7] [0],.read (9::sampleTag 1 0) [0],.read (9::sampleTag 2 0) [0]]

def sampleAfter : List Call := [.read (9::sampleTag 2 0) [0],.write [8] (List.replicate 17 0),.read (9::sampleTag 2 1) [0]]

theorem externalNoncesSample : (session sampleCipher ⟨1,2⟩ sampleBefore sampleAfter).nonces = [0,1] ∧
    session sampleCipher ⟨1,2⟩ sampleBefore sampleAfter =
      (run (TransportState.call sampleCipher) (·.sent) (.new ⟨1,2⟩) (sampleBefore ++ sampleAfter)).1 :=
  ⟨by decide +kernel,(externalNonces sampleRefuses ⟨1,2⟩ sampleBefore sampleAfter).1⟩

end KanoTls.Transport
