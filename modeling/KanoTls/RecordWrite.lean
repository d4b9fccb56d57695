import KanoTls.RecordStream

/-! The write half of a `SnowyStream` on its own: what a failed preparation leaves behind, and
what `poll_flush` and `poll_shutdown` put on the socket while the read half stores its flags. -/
namespace KanoTls.Record
open Uot Wire Shaper Machine

variable {noise : Noise} {w w' : WriteHalf} {payload : Bytes} {target : Nat}

section Preparation

/- A tag behind every message, and an error at the last nonce alone. -/
structure Noise.Documented (noise : Noise) : Prop where
  tagged : ∀ {n plain cipher}, noise.encrypt n plain = some cipher → cipher.length = plain.length + aeadTagLen
  refused : ∀ {n plain}, plain.length ≤ blockPlaintextSize → (noise.encrypt n plain = none ↔ n = 2^64 - 1)

inductive Records : Bytes → Prop where
  | nil : Records []
  | cons {cipher rest : Bytes} (least : aeadTagLen < cipher.length) (most : cipher.length ≤ maxTlsRecordPayloadLen)
      (later : Records rest) : Records (recordHeader cipher.length ++ (cipher ++ rest))

theorem recordsSnoc {front cipher : Bytes} (least : aeadTagLen < cipher.length)
    (most : cipher.length ≤ maxTlsRecordPayloadLen)
    (records : Records front) : Records (front ++ (recordHeader cipher.length ++ cipher)) := by
  induction records with
  | nil =>
    have one := Records.cons least most .nil
    rw [List.append_nil] at one
    exact one
  | cons first second _ ih =>
    have more := Records.cons first second ih
    rw [← List.append_assoc,← List.append_assoc] at more ⊢
    rw [← List.append_assoc] at more
    exact more

structure Kept (w w' : WriteHalf) : Prop where
  buffer : w'.buffer = w.buffer
  offset : w'.offset = w.offset
  controlFrameCount : w'.controlFrameCount = w.controlFrameCount

/- A failed preparation keeps the write half, and every one leaves complete records in the buffer. -/
structure PreparesWhole (noise : Noise) (w : WriteHalf) (payload : Bytes) (targetWireLen : Nat) : Prop where
  control : ∀ w', prepareControlRecord noise w payload targetWireLen = some (false,w') → Kept w w'
  data : ∀ w', prepareDataRecord noise w payload targetWireLen = some (false,w') → Kept w w'
  records : ∀ ok w', prepareControlRecord noise w payload targetWireLen = some (ok,w') ∨
    prepareDataRecord noise w payload targetWireLen = some (ok,w') → Records w'.buffer

theorem targetBounds (accepted : payload.length ≤ dataRecordCapacity) (targetWireLen : Nat) :
    payload.length + blockLenPrefixSize + innerContentTypeLen ≤ targetPlaintext payload targetWireLen ∧
      targetPlaintext payload targetWireLen ≤ blockPlaintextSize := by
  rw [targetPlaintext]
  simp only [dataRecordCapacity,blockPlaintextSize,blockLenPrefixSize,innerContentTypeLen] at accepted ⊢
  omega

theorem encryptRefused (fits : payload.length + blockLenPrefixSize + innerContentTypeLen ≤ target)
    (small : target ≤ blockPlaintextSize)
    (refused : noise.encrypt w.nonce (block payload target) = none) : encryptVariableBlock noise w payload target =
      some (false,{ w with buffer := w.buffer ++ List.replicate (tlsRecordHeaderLen + (target + aeadTagLen)) 0 }) := by
  rw [encryptVariableBlock,if_neg (Nat.not_lt.mpr fits),if_neg (Nat.not_lt.mpr small),refused]

theorem encryptSeals (fits : payload.length + blockLenPrefixSize + innerContentTypeLen ≤ target)
    (small : target ≤ blockPlaintextSize)
    {cipher : Bytes} (found : noise.encrypt w.nonce (block payload target) = some cipher) :
    encryptVariableBlock noise w payload target =
      some (true,{ w with nonce := bump w.nonce, buffer := w.buffer ++ (recordHeader cipher.length ++ cipher) }) := by
  rw [encryptVariableBlock,if_neg (Nat.not_lt.mpr fits),if_neg (Nat.not_lt.mpr small),found]

theorem encryptRecords (documented : noise.Documented)
    (fits : payload.length + blockLenPrefixSize + innerContentTypeLen ≤ target)
    (small : target ≤ blockPlaintextSize) (other : w.nonce ≠ 2^64 - 1) (formed : Records w.buffer) {ok : Bool}
    (ran : encryptVariableBlock noise w payload target = some (ok,w')) : ok = true ∧ Records w'.buffer := by
  have long := blockLength fits
  cases found : noise.encrypt w.nonce (block payload target) with
  | none => exact absurd ((documented.refused ((Nat.le_of_eq long).trans small)).mp found) other
  | some cipher =>
    rw [encryptSeals fits small found] at ran
    obtain ⟨rfl,rfl⟩ := Prod.mk.inj (Option.some.inj ran)
    have size := documented.tagged found
    rw [long] at size
    refine ⟨rfl,recordsSnoc ?_ ?_ formed⟩
    · simp only [blockLenPrefixSize,innerContentTypeLen] at fits
      omega
    · simp only [blockPlaintextSize,innerContentTypeLen,maxTlsRecordPayloadLen,aeadTagLen] at small size ⊢
      omega

theorem failedPreparation (documented : noise.Documented) (accepted : payload.length ≤ dataRecordCapacity)
    (targetWireLen : Nat)
    (formed : Records w.buffer) : PreparesWhole noise w payload targetWireLen ↔ w.nonce ≠ 2^64 - 1 := by
  obtain ⟨fits,small⟩ := targetBounds accepted targetWireLen
  constructor
  · intro whole last
    have refused := (@Noise.Documented.refused noise documented w.nonce (block payload (targetPlaintext payload targetWireLen))
      ((Nat.le_of_eq (blockLength fits)).trans small)).mpr last
    have kept := (whole.data _ (encryptRefused fits small refused)).buffer
    have length := congrArg List.length kept
    dsimp only at length
    rw [List.length_append,List.length_replicate,tlsRecordHeaderLen] at length
    omega
  · intro other
    have control := fun ok w' => @encryptRecords noise { w with controlFrameCount := bump w.controlFrameCount } w' payload _
      documented fits small other formed ok
    have data := fun ok w' => @encryptRecords noise w w' payload _ documented fits small other formed ok
    refine ⟨fun w' ran => ?_,fun w' ran => ?_,fun ok w' ran => ?_⟩
    · exact absurd (control false w' ran).1 Bool.false_ne_true
    · exact absurd (data false w' ran).1 Bool.false_ne_true
    · rcases ran with ran | ran
      · exact (control ok w' ran).2
      · exact (data ok w' ran).2

def lastNoise : Noise where
  encrypt n plain := if n = 2^64 - 1 then none else some (plain ++ List.replicate aeadTagLen (UInt8.ofNat n))
  decrypt n cipher := if n = 2^64 - 1 then none else tagNoise.decrypt n cipher

theorem lastNoiseDocumented : lastNoise.Documented := by
  constructor
  · intro n plain cipher found
    by_cases last : n = 2^64 - 1
    · rw [lastNoise,last] at found
      dsimp only at found
      rw [if_pos rfl] at found
      contradiction
    · rw [lastNoise] at found
      dsimp only at found
      rw [if_neg last] at found
      rw [← Option.some.inj found,List.length_append,List.length_replicate]
  · intro n plain _
    rw [lastNoise]
    dsimp only
    by_cases last : n = 2^64 - 1
    · rw [if_pos last]
      exact ⟨fun _ => last,fun _ => rfl⟩
    · rw [if_neg last]
      refine ⟨fun none => ?_,fun same => absurd same last⟩
      contradiction

theorem failedPreparationFresh : PreparesWhole lastNoise {} [7] 0 :=
  (failedPreparation lastNoiseDocumented (by decide) 0 .nil).mpr (by decide)

theorem refusedLeavesZeros :
    prepareControlRecord lastNoise { nonce := 2^64 - 1 } [] 40 =
      some (false,{ nonce := 2^64 - 1, buffer := List.replicate 40 0, controlFrameCount := 1 }) ∧
    ¬ PreparesWhole lastNoise { nonce := 2^64 - 1 } [] 40 := by
  have ran : prepareControlRecord lastNoise { nonce := 2^64 - 1 } [] 40 =
      some (false,{ nonce := 2^64 - 1, buffer := List.replicate 40 0, controlFrameCount := 1 }) := by decide +kernel
  refine ⟨ran,fun whole => ?_⟩
  have kept := (whole.control _ ran).controlFrameCount
  contradiction

end Preparation

section Shutdown

/- Who called `poll_flush`: the session, or `poll_shutdown` before or behind the alert. -/
inductive Caller where
  | flush | first | second
  deriving DecidableEq, Repr

/- Where a poll stands: in the loop of `try_flush_write_buffer`, at the flush of the socket, at the two
loads of `poll_shutdown`, at the alert, at its two stores, and at the shutdown of the socket. -/
inductive Stage where
  | idle
  | writing (caller : Caller)
  | socketFlush (caller : Caller)
  | loadWritten | loadClosed | alert | storeWritten | storeClosed
  | socketShutdown
  deriving DecidableEq, Repr

inductive Reply where
  | ready (n : Nat) | pending | error
  deriving DecidableEq, Repr

/- `written` is what the socket took; `observed` says that the read half has stored a flag. -/
structure Writer where
  w : WriteHalf
  stage : Stage := .idle
  written : Bytes := []
  observed : Bool
  deriving DecidableEq, Repr

inductive Move where
  | pollFlush | pollShutdown
  | socket (reply : Reply)
  | go
  | readerCloses | readerFails
  deriving DecidableEq, Repr

def afterFlush : Caller → Stage
  | .flush => .idle
  | .first => .loadWritten
  | .second => .socketShutdown

def sealAlert (noise : Noise) (w : WriteHalf) : WriteHalf :=
  match noise.encrypt w.nonce closeNotify with
  | none => w
  | some cipher => { w with nonce := bump w.nonce, buffer := w.buffer ++ (recordHeader cipher.length ++ cipher) }

/- A poll that returns, with `Pending`, an error or at its end, is idle again and keeps what it stored.
The read half stores `closed` at an alert or the end of the stream, and both flags when a record does
not decrypt, the other one first. -/
def writerStep (noise : Noise) (s : Writer) : Move → Option Writer
  | .pollFlush => if s.stage = .idle then some { s with stage := .writing .flush } else none
  | .pollShutdown => if s.stage = .idle then some { s with stage := .writing .first } else none
  | .socket reply =>
    match s.stage with
    | .writing _ =>
      if s.w.offset < s.w.buffer.length then
        match reply with
        | .ready n =>
          if n = 0 then some { s with stage := .idle }
          else if s.w.offset + n ≤ s.w.buffer.length then some { s with
            w := { s.w with offset := s.w.offset + n }
            written := s.written ++ (s.w.buffer.drop s.w.offset).take n }
          else none
        | _ => some { s with stage := .idle }
      else none
    | .socketFlush caller =>
      match reply with
      | .ready _ => some { s with stage := afterFlush caller }
      | _ => some { s with stage := .idle }
    | .socketShutdown => some { s with stage := .idle }
    | _ => none
  | .go =>
    match s.stage with
    | .writing caller =>
      if s.w.offset < s.w.buffer.length then none
      else some { s with w := { s.w with offset := 0, buffer := [] }, stage := .socketFlush caller }
    | .loadWritten => some { s with stage := if s.w.closeNotifyWritten then .writing .second else .loadClosed }
    | .loadClosed => some { s with stage := if s.w.closed then .writing .second else .alert }
    | .alert => some { s with w := sealAlert noise s.w, stage := .storeWritten }
    | .storeWritten => some { s with w := { s.w with closeNotifyWritten := true }, stage := .storeClosed }
    | .storeClosed => some { s with w := { s.w with closed := true }, stage := .writing .second }
    | _ => none
  | .readerCloses => some { s with w := { s.w with closed := true }, observed := true }
  | .readerFails => some { s with w := { s.w with closeNotifyWritten := true }, observed := true }

def WriteHalf.unsent (w : WriteHalf) : Bytes := w.buffer.drop w.offset

def Writer.begin (w : WriteHalf) : Writer := ⟨w,.idle,[],w.closed || w.closeNotifyWritten⟩

def IsCloseNotify (noise : Noise) (nonce : Nat) (bytes : Bytes) : Prop :=
  ∃ cipher, noise.encrypt nonce closeNotify = some cipher ∧ bytes = recordHeader cipher.length ++ cipher

def Stage.flushedBuffer : Stage → Bool
  | .idle | .writing _ => false
  | _ => true

structure Sends (noise : Noise) (start : WriteHalf) (s : Writer) (alert : Bytes) : Prop where
  bytes : s.written ++ s.w.unsent = start.unsent ++ alert
  inside : s.stage.flushedBuffer = true → s.w.offset ≤ s.w.buffer.length
  kind : alert = [] ∨ IsCloseNotify noise start.nonce alert
  fresh : alert = [] → s.w.nonce = start.nonce
  once : alert ≠ [] → s.stage = .storeWritten ∨
    (s.w.closeNotifyWritten = true ∧ s.stage ≠ .loadClosed ∧ s.stage ≠ .alert)

variable {s t : Writer} {start : WriteHalf} {alert : Bytes} {move : Move}

theorem takenBytes (w : WriteHalf) (n : Nat) :
    (w.buffer.drop w.offset).take n ++ { w with offset := w.offset + n }.unsent = w.unsent := by
  show (w.buffer.drop w.offset).take n ++ w.buffer.drop (w.offset + n) = w.buffer.drop w.offset
  rw [← List.drop_drop,List.take_append_drop]

structure Quiet (s t : Writer) : Prop where
  bytes : t.written ++ t.w.unsent = s.written ++ s.w.unsent
  nonce : t.w.nonce = s.w.nonce
  inside : (s.stage.flushedBuffer = true → s.w.offset ≤ s.w.buffer.length) → t.stage.flushedBuffer = true →
    t.w.offset ≤ t.w.buffer.length
  closed : s.w.closed = true → t.w.closed = true
  written : s.w.closeNotifyWritten = true → t.w.closeNotifyWritten = true
  observed : s.observed = true → t.observed = true
  observes : t.observed = true → s.observed = true ∨ t.w.closed = true ∨ t.w.closeNotifyWritten = true
  stored : s.stage = .storeWritten → t.stage = .storeWritten ∨ (t.w.closeNotifyWritten = true ∧ t.stage = .storeClosed)
  checks : t.stage = .loadClosed → s.stage = .loadClosed ∨ s.w.closeNotifyWritten = false
  alerts : t.stage = .alert → s.stage = .alert ∨ (s.stage = .loadClosed ∧ s.w.closed = false)

theorem quietStage {stage : Stage} (inside : stage.flushedBuffer = true → s.stage.flushedBuffer = true)
    (stored : s.stage ≠ .storeWritten) (checks : stage = .loadClosed → s.w.closeNotifyWritten = false)
    (alerts : stage = .alert → s.stage = .loadClosed ∧ s.w.closed = false) : Quiet s { s with stage := stage } :=
  ⟨rfl,rfl,fun known here => known (inside here),id,id,id,.inl,fun here => absurd here stored,fun here => .inr (checks here),
    fun here => .inr (alerts here)⟩

theorem quietReturn (stored : s.stage ≠ .storeWritten) : Quiet s { s with stage := .idle } :=
  quietStage (fun no => absurd no (by decide)) stored (fun no => absurd no (by decide)) (fun no => absurd no (by decide))

theorem quietTaken {caller : Caller} (here : s.stage = .writing caller) (n : Nat) : Quiet s { s with
    w := { s.w with offset := s.w.offset + n }, written := s.written ++ (s.w.buffer.drop s.w.offset).take n } := by
  refine ⟨?_,rfl,fun _ past => ?_,id,id,id,.inl,.inl,.inl,.inl⟩
  · show s.written ++ _ ++ _ = _
    rw [List.append_assoc]
    exact congrArg (s.written ++ ·) (takenBytes s.w n)
  · rw [here] at past
    contradiction

theorem quietCleared {caller : Caller} (here : s.stage = .writing caller) (done : ¬ s.w.offset < s.w.buffer.length) :
    Quiet s { s with w := { s.w with offset := 0, buffer := [] }, stage := .socketFlush caller } := by
  refine ⟨?_,rfl,fun _ _ => Nat.le_refl _,id,id,id,.inl,fun no => ?_,fun no => ?_,fun no => ?_⟩
  · have none : s.w.unsent = [] := List.drop_eq_nil_of_le (Nat.not_lt.mp done)
    rw [none]
    rfl
  · rw [here] at no
    contradiction
  · contradiction
  · contradiction

theorem goCases (moved : writerStep noise s .go = some t) :
    Quiet s t ∨ (s.stage = .alert ∧ t = { s with w := sealAlert noise s.w, stage := .storeWritten }) := by
  rw [writerStep] at moved
  cases here : s.stage with
  | idle | socketFlush | socketShutdown =>
    rw [here] at moved
    contradiction
  | writing caller =>
    rw [here] at moved
    dsimp only at moved
    by_cases more : s.w.offset < s.w.buffer.length
    · rw [if_pos more] at moved
      contradiction
    · rw [if_neg more] at moved
      cases Option.some.inj moved
      exact .inl (quietCleared here more)
  | loadWritten =>
    rw [here] at moved
    cases Option.some.inj moved
    refine .inl (quietStage (fun _ => by rw [here]; rfl) (by rw [here]; decide) (fun next => ?_) (fun next => ?_))
    · cases flag : s.w.closeNotifyWritten with
      | false => rfl
      | true =>
        rw [flag] at next
        contradiction
    · cases flag : s.w.closeNotifyWritten with
      | false =>
        rw [flag] at next
        contradiction
      | true =>
        rw [flag] at next
        contradiction
  | loadClosed =>
    rw [here] at moved
    cases Option.some.inj moved
    refine .inl (quietStage (fun _ => by rw [here]; rfl) (by rw [here]; decide) (fun next => ?_) (fun next => ⟨here,?_⟩))
    · cases flag : s.w.closed with
      | false =>
        rw [flag] at next
        contradiction
      | true =>
        rw [flag] at next
        contradiction
    · cases flag : s.w.closed with
      | false => rfl
      | true =>
        rw [flag] at next
        contradiction
  | alert =>
    rw [here] at moved
    exact .inr ⟨rfl,(Option.some.inj moved).symm⟩
  | storeWritten =>
    rw [here] at moved
    cases Option.some.inj moved
    refine .inl ⟨rfl,rfl,fun known _ => known (by rw [here]; rfl),id,fun _ => rfl,id,.inl,fun _ => .inr ⟨rfl,rfl⟩,
      fun no => ?_,
      fun no => ?_⟩
    · contradiction
    · contradiction
  | storeClosed =>
    rw [here] at moved
    cases Option.some.inj moved
    refine .inl ⟨rfl,rfl,fun _ no => ?_,fun _ => rfl,id,id,.inl,fun no => ?_,fun no => ?_,fun no => ?_⟩
    · contradiction
    · rw [here] at no
      contradiction
    · contradiction
    · contradiction

theorem socketQuiet {reply : Reply} (moved : writerStep noise s (.socket reply) = some t) : Quiet s t := by
  unfold writerStep at moved
  cases here : s.stage with
  | idle | loadWritten | loadClosed | alert | storeWritten | storeClosed =>
    rw [here] at moved
    contradiction
  | socketShutdown =>
    rw [here] at moved
    cases Option.some.inj moved
    exact quietReturn (by rw [here]; decide)
  | socketFlush caller =>
    have past : s.stage.flushedBuffer = true := by rw [here]; rfl
    have notStored : s.stage ≠ .storeWritten := by
      rw [here]
      exact Stage.noConfusion
    rw [here] at moved
    cases reply with
    | ready n =>
      cases Option.some.inj moved
      refine quietStage (fun _ => past) notStored (fun no => ?_) (fun no => ?_)
      · cases caller <;> contradiction
      · cases caller <;> contradiction
    | pending =>
      cases Option.some.inj moved
      exact quietReturn notStored
    | error =>
      cases Option.some.inj moved
      exact quietReturn notStored
  | writing caller =>
    have notStored : s.stage ≠ .storeWritten := by
      rw [here]
      exact Stage.noConfusion
    rw [here] at moved
    dsimp only at moved
    by_cases more : s.w.offset < s.w.buffer.length
    · rw [if_pos more] at moved
      cases reply with
      | ready n =>
        dsimp only at moved
        by_cases zero : n = 0
        · rw [if_pos zero] at moved
          cases Option.some.inj moved
          exact quietReturn notStored
        · rw [if_neg zero] at moved
          by_cases fits : s.w.offset + n ≤ s.w.buffer.length
          · rw [if_pos fits] at moved
            cases Option.some.inj moved
            have taken := quietTaken here n
            rw [← here]
            exact taken
          · rw [if_neg fits] at moved
            contradiction
      | pending =>
        cases Option.some.inj moved
        exact quietReturn notStored
      | error =>
        cases Option.some.inj moved
        exact quietReturn notStored
    · rw [if_neg more] at moved
      contradiction

theorem writerCases (moved : writerStep noise s move = some t) :
    Quiet s t ∨ (s.stage = .alert ∧ t = { s with w := sealAlert noise s.w, stage := .storeWritten }) := by
  cases move with
  | pollFlush =>
    rw [writerStep] at moved
    by_cases idle : s.stage = .idle
    · rw [if_pos idle] at moved
      cases Option.some.inj moved
      refine .inl (quietStage (fun no => ?_) (by rw [idle]; decide) (fun no => ?_) (fun no => ?_)) <;> contradiction
    · rw [if_neg idle] at moved
      contradiction
  | pollShutdown =>
    rw [writerStep] at moved
    by_cases idle : s.stage = .idle
    · rw [if_pos idle] at moved
      cases Option.some.inj moved
      refine .inl (quietStage (fun no => ?_) (by rw [idle]; decide) (fun no => ?_) (fun no => ?_)) <;> contradiction
    · rw [if_neg idle] at moved
      contradiction
  | socket reply => exact .inl (socketQuiet moved)
  | go => exact goCases moved
  | readerCloses =>
    cases Option.some.inj moved
    exact .inl ⟨rfl,rfl,id,fun _ => rfl,id,fun _ => rfl,fun _ => .inr (.inl rfl),.inl,.inl,.inl⟩
  | readerFails =>
    cases Option.some.inj moved
    exact .inl ⟨rfl,rfl,id,id,fun _ => rfl,fun _ => rfl,fun _ => .inr (.inr rfl),.inl,.inl,.inl⟩

theorem sendsQuiet (sends : Sends noise start s alert) (quiet : Quiet s t) : Sends noise start t alert := by
  refine ⟨quiet.bytes.trans sends.bytes,quiet.inside sends.inside,sends.kind,
    fun none => quiet.nonce.trans (sends.fresh none),
    fun some => ?_⟩
  rcases sends.once some with stored | ⟨flag,notClosed,notAlert⟩
  · rcases quiet.stored stored with still | ⟨flag,next⟩
    · exact .inl still
    · exact .inr ⟨flag,by rw [next]; decide,by rw [next]; decide⟩
  · refine .inr ⟨quiet.written flag,fun loads => ?_,fun seals => ?_⟩
    · rcases quiet.checks loads with before | unset
      · exact notClosed before
      · rw [flag] at unset
        contradiction
    · rcases quiet.alerts seals with before | ⟨before,_⟩
      · exact notAlert before
      · exact notClosed before

theorem sendsAlert (sends : Sends noise start s alert) (here : s.stage = .alert) :
    ∃ alert, Sends noise start { s with w := sealAlert noise s.w, stage := .storeWritten } alert := by
  have none : alert = [] := by
    by_contra some
    rcases sends.once some with stored | ⟨_,_,notAlert⟩
    · rw [here] at stored
      contradiction
    · exact notAlert here
  subst none
  have inside := sends.inside (by rw [here]; rfl)
  have nonce := sends.fresh rfl
  have bytes := sends.bytes
  rw [List.append_nil] at bytes
  cases found : noise.encrypt s.w.nonce closeNotify with
  | none =>
    have same : sealAlert noise s.w = s.w := by rw [sealAlert,found]
    rw [same]
    exact ⟨[],sends.bytes,fun _ => inside,.inl rfl,fun _ => nonce,fun some => absurd rfl some⟩
  | some cipher =>
    have put : sealAlert noise s.w =
        { s.w with nonce := bump s.w.nonce, buffer := s.w.buffer ++ (recordHeader cipher.length ++ cipher) } := by
      rw [sealAlert,found]
    rw [put]
    refine ⟨recordHeader cipher.length ++ cipher,?_,fun _ => ?_,.inr ⟨cipher,nonce ▸ found,rfl⟩,fun none => ?_,
      fun _ => .inl rfl⟩
    · show s.written ++ (s.w.buffer ++ (recordHeader cipher.length ++ cipher)).drop s.w.offset = _
      rw [List.drop_append_of_le_length inside,← List.append_assoc]
      exact congrArg (· ++ (recordHeader cipher.length ++ cipher)) bytes
    · dsimp only
      rw [List.length_append]
      omega
    · exact absurd (congrArg List.length none) (by rw [List.length_append]; exact Nat.ne_of_gt (Nat.lt_of_lt_of_le (by decide) (Nat.le_add_right 5 _)))

theorem reachSends (reach : Reach (writerStep noise) Always (.begin start) s) : ∃ alert, Sends noise start s alert := by
  refine @reachInvariant _ _ _ _ _ (fun s => ∃ alert, Sends noise start s alert) ?_ ?_ _ reach
  · refine ⟨[],?_,fun no => ?_,.inl rfl,fun _ => rfl,fun some => absurd rfl some⟩
    · rw [List.append_nil]
      rfl
    · contradiction
  · rintro s move t ⟨alert,sends⟩ _ moved
    rcases writerCases moved with quiet | ⟨here,rfl⟩
    · exact ⟨alert,sendsQuiet sends quiet⟩
    · exact sendsAlert sends here

theorem reachObserved (reach : Reach (writerStep noise) Always (.begin start) s) :
    s.observed = true → s.w.closed = true ∨ s.w.closeNotifyWritten = true := by
  refine @reachInvariant _ _ _ _ _ (fun s => s.observed = true → s.w.closed = true ∨ s.w.closeNotifyWritten = true) ?_ ?_ _ reach
  · intro set
    exact (Bool.or_eq_true _ _).mp set
  · intro s move t known _ moved seen
    rcases writerCases moved with quiet | ⟨_,rfl⟩
    · rcases quiet.observes seen with before | now
      · exact (known before).imp quiet.closed quiet.written
      · exact now
    · have flags : (sealAlert noise s.w).closed = s.w.closed ∧
          (sealAlert noise s.w).closeNotifyWritten = s.w.closeNotifyWritten := by
        rw [sealAlert]
        cases noise.encrypt s.w.nonce closeNotify with
        | none => exact ⟨rfl,rfl⟩
        | some cipher => exact ⟨rfl,rfl⟩
      have before := known seen
      rw [← flags.1,← flags.2] at before
      exact before

/- A shutdown that finds a flag stored never comes to the alert, and no later one does. -/
structure Barred (s t : Writer) : Prop where
  bytes : t.written ++ t.w.unsent = s.written ++ s.w.unsent
  flag : t.w.closed = true ∨ t.w.closeNotifyWritten = true
  loads : t.stage = .loadClosed → t.w.closed = true
  alert : t.stage ≠ .alert

theorem barredReach (barred : Barred s s) (reach : Reach (writerStep noise) Always s t) : Barred s t := by
  refine reachInvariant barred ?_ reach
  intro u move v inv _ moved
  rcases writerCases moved with quiet | ⟨here,_⟩
  · refine ⟨quiet.bytes.trans inv.bytes,inv.flag.imp quiet.closed quiet.written,fun loads => ?_,fun seals => ?_⟩
    · rcases quiet.checks loads with before | unset
      · exact quiet.closed (inv.loads before)
      · rcases inv.flag with closed | set
        · exact quiet.closed closed
        · rw [unset] at set
          contradiction
    · rcases quiet.alerts seals with before | ⟨before,unset⟩
      · exact inv.alert before
      · rw [inv.loads before] at unset
        contradiction
  · exact absurd here inv.alert

/- What the socket took is a front of the buffered bytes and one close_notify at most; from a shutdown that
comes to its loads behind a store of the read half, no close_notify comes any more. -/
theorem closeNotifyOnce (start : WriteHalf) (reach : Reach (writerStep noise) Always (.begin start) s) :
    (∃ alert, (alert = [] ∨ IsCloseNotify noise start.nonce alert) ∧ s.written ++ s.w.unsent = start.unsent ++ alert) ∧
    (s.stage = .loadWritten → s.observed = true → ∀ t, Reach (writerStep noise) Always s t →
      t.written ++ t.w.unsent = s.written ++ s.w.unsent) := by
  obtain ⟨alert,sends⟩ := reachSends reach
  refine ⟨⟨alert,sends.kind,sends.bytes⟩,fun here seen t later => ?_⟩
  refine (barredReach ⟨rfl,reachObserved reach seen,fun no => ?_,?_⟩ later).bytes
  · rw [here] at no
    contradiction
  · rw [here]
    decide

def shutdownTwice : List Move :=
  [.pollShutdown,.socket (.ready 2),.go,.socket (.ready 0),.go,.go,.go,.go,.go,.socket (.ready 3),.socket .pending,
    .pollShutdown,.socket (.ready 21),.go,.socket (.ready 0),.go,.go,.socket (.ready 0),.socket (.ready 0)]

theorem closeNotifyOnceTwice : ∃ s, Reach (writerStep tagNoise) Always (.begin { buffer := [1,2] }) s ∧ s.stage = .idle ∧
    s.written = [1,2] ++ (recordHeader 19 ++ (closeNotify ++ List.replicate 16 0)) ∧
    ∃ alert, (alert = [] ∨ IsCloseNotify tagNoise 0 alert) ∧ s.written ++ s.w.unsent = [1,2] ++ alert := by
  have ran : (checked (writerStep tagNoise) Always (.begin { buffer := [1,2] }) shutdownTwice).any (fun s =>
      s.stage == .idle && s.written == [1,2] ++ (recordHeader 19 ++ (closeNotify ++ List.replicate 16 0))) = true := by
    decide +kernel
  obtain ⟨s,reach,here⟩ := checkedReaches ran
  obtain ⟨idle,bytes⟩ := (Bool.and_eq_true _ _).mp here
  exact ⟨s,reach,eq_of_beq idle,eq_of_beq bytes,(closeNotifyOnce { buffer := [1,2] } reach).1⟩

end Shutdown

end KanoTls.Record
