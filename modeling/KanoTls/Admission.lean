import Mathlib.Data.List.AList
import KanoTls.Fallback
import KanoTls.IpText
import KanoTls.Program
import KanoTls.Tasks

/-! What bounds the work of a server: the semaphores for connections, handshakes, sessions and
fallbacks, and the table of fallbacks for each address. A connection is a program that takes
and returns permits; any connection may be the next to move, and one that is dropped at an
`await` drops what it holds. -/
namespace KanoTls.Admission
open Program Machine
open IpText (IpAddr)
open Fallback (FailureClass)

inductive Limiter where
  | connection | handshake | session | fallback
  deriving DecidableEq, Repr

structure FallbackLimits where
  maxPreAuthFallbacks : Nat
  maxPreAuthFallbacksPerIp : Nat
  preAuthFallbackConnectTimeoutSecs : Nat

def fallbackLimits : FallbackLimits := ⟨512,16,3⟩

def Limiter.permits : Limiter → Nat
  | .connection => 4096
  | .handshake => 512
  | .session => 4096
  | .fallback => fallbackLimits.maxPreAuthFallbacks

/- `poisoned` is of the mutex around the table. -/
structure Limits where
  available : Limiter → Nat := Limiter.permits
  peerCounts : AList (fun _ : IpAddr => Nat) := ∅
  poisoned : Bool := false

def tryAcquire (s : Limits) (limiter : Limiter) : Bool × Limits :=
  if 0 < s.available limiter then (true,{ s with available := Function.update s.available limiter (s.available limiter - 1) })
  else (false,s)

def release (s : Limits) (limiter : Limiter) : Limits :=
  { s with available := Function.update s.available limiter (s.available limiter + 1) }

inductive Counted where
  | counted | full | poisoned
  deriving DecidableEq, Repr

def orInsert (counts : AList (fun _ : IpAddr => Nat)) (ip : IpAddr) : AList (fun _ : IpAddr => Nat) :=
  if (counts.lookup ip).isSome then counts else counts.insert ip 0

/- The part of `try_acquire_pre_auth_fallback_permit` under the lock. -/
def countPeer (s : Limits) (ip : IpAddr) : Counted × Limits :=
  if s.poisoned then (.poisoned,s)
  else
    let counts := orInsert s.peerCounts ip
    let count := (counts.lookup ip).getD 0
    if count ≥ fallbackLimits.maxPreAuthFallbacksPerIp then (.full,{ s with peerCounts := counts })
    else (.counted,{ s with peerCounts := counts.insert ip (count + 1) })

/- `drop` of a permit, before its semaphore permit goes. -/
def uncountPeer (s : Limits) (ip : IpAddr) : Limits :=
  if s.poisoned then s
  else
    match s.peerCounts.lookup ip with
    | none => s
    | some count =>
      if count > 1 then { s with peerCounts := s.peerCounts.insert ip (count - 1) }
      else { s with peerCounts := s.peerCounts.erase ip }

/- `judge` reads the first record and judges it; `establish` sets the tunnel up and reads
Flight 3; `serve` is the session, up to the end of its handler. -/
inductive Op where
  | tryAcquire (limiter : Limiter)
  | release (limiter : Limiter)
  | setNodelay
  | peerAddr
  | judge
  | countPeer (ip : IpAddr)
  | uncountPeer (ip : IpAddr)
  | forward
  | drain
  | commitReplay
  | establish
  | resolveOutbound
  | serve
  | linger
  deriving DecidableEq

/- At an `await`, `none` is that the connection was dropped there. -/
abbrev Answer : Op → Type
  | .tryAcquire _ => Bool
  | .release _ => Unit
  | .setNodelay => Bool
  | .peerAddr => Bool
  | .judge => Option (Option FailureClass)
  | .countPeer _ => Counted
  | .uncountPeer _ => Unit
  | .forward => Option Bool
  | .drain => Option Unit
  | .commitReplay => Bool
  | .establish => Option Bool
  | .resolveOutbound => Bool
  | .serve => Bool
  | .linger => Unit

inductive Choice where
  | run
  | drop
  | answers (yes : Bool)
  | judged (failure : Option FailureClass)
  | poison

def act (s : Limits) : (e : Op) → Choice → Option (Answer e × Limits)
  | .tryAcquire limiter,.run => some ((tryAcquire s limiter).1,(tryAcquire s limiter).2)
  | .release limiter,.run => some ((),release s limiter)
  | .setNodelay,.answers yes => some (yes,s)
  | .peerAddr,.answers yes => some (yes,s)
  | .judge,.judged failure => some (some failure,s)
  | .judge,.drop => some (none,s)
  | .countPeer ip,.run => some ((countPeer s ip).1,(countPeer s ip).2)
  | .uncountPeer ip,.run => some ((),uncountPeer s ip)
  | .forward,.answers yes => some (some yes,s)
  | .forward,.drop => some (none,s)
  | .drain,.run => some (some (),s)
  | .drain,.drop => some (none,s)
  | .commitReplay,.answers yes => some (yes,s)
  | .establish,.answers yes => some (some yes,s)
  | .establish,.drop => some (none,s)
  | .resolveOutbound,.answers yes => some (yes,s)
  | .serve,.answers yes => some (yes,s)
  | .linger,.run => some ((),s)
  | _,_ => none

/- A panic under the lock. -/
def drift (s : Limits) : Choice → Option Limits
  | .poison => some { s with poisoned := true }
  | _ => none

def world : World Op Answer Limits Choice := ⟨act,drift⟩

abbrev Connection := Program Op Answer

def ask (e : Op) : Connection (Answer e) := perform e

def tryAcquirePreAuthFallbackPermit (peerIp : IpAddr) : Connection Bool := do
  if ← (ask (.tryAcquire .fallback) : Connection Bool) then do
    match ← (ask (.countPeer peerIp) : Connection Counted) with
    | .counted => pure true
    | _ => do
      ask (.release .fallback)
      pure false
  else pure false

def dropPreAuthFallbackPermit (peerIp : IpAddr) : Connection Unit := do
  ask (.uncountPeer peerIp)
  ask (.release .fallback)

inductive FallbackEnd where
  | forwarded | unavailable | dropped
  deriving DecidableEq, Repr

def FallbackEnd.of : Option Bool → FallbackEnd
  | none => .dropped
  | some true => .forwarded
  | some false => .unavailable

def tryPreAuthFallback (peerIp : IpAddr) : Connection FallbackEnd := do
  if ← (ask .peerAddr : Connection Bool) then do
    if ← tryAcquirePreAuthFallbackPermit peerIp then do
      let relayed ← (ask .forward : Connection (Option Bool))
      dropPreAuthFallbackPermit peerIp
      pure (.of relayed)
    else pure .unavailable
  else pure .unavailable

def emitIndistinguishableClose : Connection (Option Unit) := ask .drain

def tryCapacityLimitedFallback (peerIp : IpAddr) : Connection (Option Unit) := do
  match ← tryPreAuthFallback peerIp with
  | .forwarded => pure (some ())
  | .dropped => pure none
  | .unavailable => emitIndistinguishableClose

def emitPreAuthFailure (peerIp : IpAddr) (failure : FailureClass) : Connection (Option Unit) := do
  if failure = .capacityLimited then tryCapacityLimitedFallback peerIp
  else do
    match ← tryPreAuthFallback peerIp with
    | .forwarded => pure (some ())
    | .dropped => pure none
    | .unavailable => emitIndistinguishableClose

inductive AcceptEnd where
  | accepted | preAuth | internal | dropped
  deriving DecidableEq, Repr

def AcceptEnd.rejected : Option Unit → AcceptEnd
  | none => .dropped
  | some () => .preAuth

structure Peer where
  ip : IpAddr
  users : Nat
  deriving DecidableEq, Repr

/- `server_accept` from the session permit on. -/
def enterSession (peerIp : IpAddr) : Connection AcceptEnd := do
  if ← (ask (.tryAcquire .session) : Connection Bool) then do
    if ← (ask .commitReplay : Connection Bool) then do
      match ← (ask .establish : Connection (Option Bool)) with
      | some true => pure .accepted
      | some false => do
        ask (.release .session)
        pure .internal
      | none => do
        ask (.release .session)
        pure .dropped
    else do
      ask (.release .session)
      pure .internal
  else AcceptEnd.rejected <$> emitPreAuthFailure peerIp .capacityLimited

def serverAccept (peer : Peer) : Connection AcceptEnd := do
  if ← (ask .setNodelay : Connection Bool) then do
    if ← (ask (.tryAcquire .handshake) : Connection Bool) then do
      if ← (ask .peerAddr : Connection Bool) then do
        if peer.users = 0 then do
          ask (.release .handshake)
          pure .internal
        else do
          let judged ← (ask .judge : Connection (Option (Option FailureClass)))
          ask (.release .handshake)
          match judged with
          | none => pure .dropped
          | some (some failure) => AcceptEnd.rejected <$> emitPreAuthFailure peer.ip failure
          | some none => enterSession peer.ip
      else do
        ask (.release .handshake)
        pure .preAuth
    else AcceptEnd.rejected <$> emitIndistinguishableClose
  else pure .preAuth

inductive ConnectionEnd where
  | refused | expected | fault | dropped
  deriving DecidableEq, Repr

/- With `true`, halves of the stream are still held by the tasks of the session, and with them
its permit. -/
def handleServerConn (peer : Peer) : Connection (ConnectionEnd × Bool) := do
  match ← serverAccept peer with
  | .preAuth => pure (.expected,false)
  | .internal => pure (.fault,false)
  | .dropped => pure (.dropped,false)
  | .accepted => do
    if ← (ask .resolveOutbound : Connection Bool) then do
      if ← (ask .serve : Connection Bool) then pure (.expected,true)
      else do
        ask (.release .session)
        pure (.expected,false)
    else do
      ask (.release .session)
      pure (.fault,false)

def acceptConnection (peer : Peer) : Connection ConnectionEnd := do
  if ← (ask (.tryAcquire .connection) : Connection Bool) then do
    let (ended,left) ← handleServerConn peer
    ask (.release .connection)
    if left then do
      ask .linger
      ask (.release .session)
      pure ended
    else pure ended
  else pure .refused

abbrev Connections := Pool Peer Op Answer ConnectionEnd Limits
abbrev ConnectionTask := Task Peer Op Answer ConnectionEnd

/- `refused` is set once a limit or a call of the peer's socket or of the endpoint has failed. -/
structure View where
  ip : IpAddr
  holds : Limiter → Bool := fun _ => false
  counted : Bool := false
  refused : Bool := false

def Exclusive (v : View) (limiters : List Limiter) : Prop := ∀ limiter, v.holds limiter = decide (limiter ∈ limiters)

def allows (v : View) : Op → Prop
  | .tryAcquire limiter => v.holds limiter = false
  | .release limiter => v.holds limiter = true ∧ (limiter = .fallback → v.counted = false)
  | .judge => Exclusive v [.connection,.handshake] ∧ v.counted = false
  | .countPeer ip => ip = v.ip ∧ v.counted = false ∧ v.holds .fallback = true
  | .uncountPeer ip => ip = v.ip ∧ v.counted = true
  | .forward => Exclusive v [.connection,.fallback] ∧ v.counted = true
  | .drain => Exclusive v [.connection] ∧ v.counted = false ∧ v.refused = true
  | .establish => Exclusive v [.connection,.session] ∧ v.counted = false
  | .serve => Exclusive v [.connection,.session] ∧ v.counted = false
  | .linger => Exclusive v [.session] ∧ v.counted = false
  | _ => True

def after (v : View) : (e : Op) → Answer e → Option View
  | .tryAcquire limiter,got => some (if got then { v with holds := Function.update v.holds limiter true } else { v with refused := true })
  | .release limiter,() => some { v with holds := Function.update v.holds limiter false }
  | .countPeer _,answer => some (if answer = .counted then { v with counted := true } else { v with refused := true })
  | .uncountPeer _,() => some { v with counted := false }
  | .peerAddr,there => some (if there then v else { v with refused := true })
  | .forward,relayed => some (if relayed = some false then { v with refused := true } else v)
  | _,_ => some v

def protocol : Protocol Op Answer View := ⟨allows,after⟩

def fresh (peer : Peer) : View := { ip := peer.ip }

def ends (v : View) (_ : ConnectionEnd) : Prop := Exclusive v [] ∧ v.counted = false

section Programs
variable {v : View} {ip : IpAddr} {limiter : Limiter} {limiters : List Limiter} {counted : Bool} {α : Type} {goal : View → α → Prop}

structure At (ip : IpAddr) (limiters : List Limiter) (counted : Bool) (v : View) : Prop where
  ip : v.ip = ip
  holds : Exclusive v limiters
  counted : v.counted = counted

theorem acquireThen {rest : Bool → Connection α} (here : At ip limiters counted v) (spare : limiter ∉ limiters)
    (got : ∀ w, At ip (limiter::limiters) counted w → Follows protocol goal w (rest true))
    (missed : ∀ w, At ip limiters counted w → w.refused = true → Follows protocol goal w (rest false)) :
    Follows protocol goal v (ask (.tryAcquire limiter) >>= rest) := by
  refine followsBind (followsPerform ?_ ?_)
  · exact (here.holds limiter).trans (decide_eq_false spare)
  · intro yes w moved
    cases yes with
    | false =>
      cases Option.some.inj moved
      exact missed _ ⟨here.ip,here.holds,here.counted⟩ rfl
    | true =>
      cases Option.some.inj moved
      refine got _ ⟨here.ip,?_,here.counted⟩
      intro other
      by_cases same : other = limiter
      · subst same
        simp
      · simpa [same] using here.holds other

theorem releaseThen {rest : Unit → Connection α} (here : At ip (limiter::limiters) false v) (spare : limiter ∉ limiters)
    (next : ∀ w, At ip limiters false w → w.refused = v.refused → Follows protocol goal w (rest ())) :
    Follows protocol goal v (ask (.release limiter) >>= rest) := by
  refine followsBind (followsPerform ⟨(here.holds limiter).trans (by simp),fun _ => here.counted⟩ ?_)
  intro _ w moved
  cases Option.some.inj moved
  refine next _ ⟨here.ip,?_,here.counted⟩ rfl
  intro other
  by_cases same : other = limiter
  · subst same
    simp [spare]
  · simpa [same] using here.holds other

theorem peerAddrThen {rest : Bool → Connection α} (here : At ip limiters counted v)
    (there : ∀ w, At ip limiters counted w → Follows protocol goal w (rest true))
    (gone : ∀ w, At ip limiters counted w → w.refused = true → Follows protocol goal w (rest false)) :
    Follows protocol goal v (ask .peerAddr >>= rest) := by
  refine followsBind (followsPerform trivial ?_)
  intro yes w moved
  cases yes <;> cases Option.some.inj moved
  · exact gone _ ⟨here.ip,here.holds,here.counted⟩ rfl
  · exact there _ here

theorem permitFollows (here : At ip [.connection] false v) :
    Follows protocol (fun w got => (got = true → At ip [.fallback,.connection] true w) ∧
      (got = false → At ip [.connection] false w ∧ w.refused = true)) v (tryAcquirePreAuthFallbackPermit ip) := by
  refine acquireThen here (by decide) ?_ ?_
  · intro v here
    refine followsBind (followsPerform ⟨here.ip.symm,here.counted,here.holds .fallback⟩ ?_)
    intro answer w moved
    have turned : answer ≠ .counted → Follows protocol (fun w got => (got = true → At ip [.fallback,.connection] true w) ∧
        (got = false → At ip [.connection] false w ∧ w.refused = true)) w
        (do ask (.release .fallback); pure false : Connection Bool) := by
      intro other
      have moved := Option.some.inj moved
      rw [if_neg other] at moved
      cases moved
      refine releaseThen (v := { v with refused := true }) ⟨here.ip,here.holds,here.counted⟩ (by decide) ?_
      intro w after kept
      exact ⟨fun no => by contradiction,fun _ => ⟨after,kept⟩⟩
    cases answer with
    | counted =>
      cases Option.some.inj moved
      exact ⟨fun _ => ⟨here.ip,here.holds,rfl⟩,fun no => by contradiction⟩
    | full => exact turned (fun same => by cases same)
    | poisoned => exact turned (fun same => by cases same)
  · intro w here refused
    exact ⟨fun no => by contradiction,fun _ => ⟨here,refused⟩⟩

theorem dropFollows {refused : Bool} (here : At ip [.fallback,.connection] true v) (before : v.refused = refused) :
    Follows protocol (fun w _ => At ip [.connection] false w ∧ w.refused = refused) v (dropPreAuthFallbackPermit ip) := by
  refine followsBind (followsPerform ⟨here.ip.symm,here.counted⟩ ?_)
  intro _ w moved
  cases Option.some.inj moved
  show Follows protocol _ _ (ask (.release .fallback) >>= pure)
  refine releaseThen (v := { v with counted := false }) ⟨here.ip,here.holds,rfl⟩ (by decide) ?_
  intro w here kept
  exact ⟨here,kept.trans before⟩

theorem fallbackFollows (here : At ip [.connection] false v) :
    Follows protocol (fun w ended => At ip [.connection] false w ∧ (ended = .unavailable → w.refused = true)) v
      (tryPreAuthFallback ip) := by
  refine peerAddrThen here ?_ ?_
  · intro v here
    refine followsBind (followsWeaken ?_ (permitFollows here))
    rintro v got ⟨yes,no⟩
    cases got with
    | false => exact ⟨(no rfl).1,fun _ => (no rfl).2⟩
    | true =>
      have here := yes rfl
      refine followsBind (followsPerform ⟨?_,here.counted⟩ ?_)
      · intro other
        rw [here.holds other]
        cases other <;> rfl
      · intro relayed w moved
        have after : At ip [.fallback,.connection] true w ∧ (relayed = some false → w.refused = true) := by
          have moved := Option.some.inj moved
          split at moved <;> cases moved
          · exact ⟨⟨here.ip,here.holds,here.counted⟩,fun _ => rfl⟩
          · rename_i other
            exact ⟨here,fun same => absurd same other⟩
        refine followsBind (followsWeaken ?_ (dropFollows after.1 rfl))
        rintro u _ ⟨at',kept⟩
        refine ⟨at',fun ended => kept.trans (after.2 ?_)⟩
        rcases relayed with _ | _ | _
        · contradiction
        · rfl
        · contradiction
  · intro w here refused
    exact ⟨here,fun _ => refused⟩

theorem closeFollows (here : At ip [.connection] false v) (refused : v.refused = true) :
    Follows protocol (fun w _ => At ip [.connection] false w) v emitIndistinguishableClose := by
  refine followsPerform ⟨here.holds,here.counted,refused⟩ ?_
  intro _ w moved
  cases Option.some.inj moved
  exact here

theorem failureFollows (failure : FailureClass) (here : At ip [.connection] false v) :
    Follows protocol (fun w _ => At ip [.connection] false w) v (emitPreAuthFailure ip failure) := by
  have either : Follows protocol (fun w _ => At ip [.connection] false w) v (tryCapacityLimitedFallback ip) := by
    refine followsBind (followsWeaken ?_ (fallbackFollows here))
    rintro w ended ⟨here,refused⟩
    cases ended with
    | forwarded => exact here
    | dropped => exact here
    | unavailable => exact closeFollows here (refused rfl)
  unfold emitPreAuthFailure
  split
  · exact either
  · exact either

def accepts (ip : IpAddr) (v : View) : AcceptEnd → Prop
  | .accepted => At ip [.session,.connection] false v
  | _ => At ip [.connection] false v

theorem acceptsRejected (here : At ip [.connection] false v) (close : Option Unit) : accepts ip v (.rejected close) := by
  cases close <;> exact here

theorem rejectedFollows {close : Connection (Option Unit)}
    (follows : Follows protocol (fun w _ => At ip [.connection] false w) v close) :
    Follows protocol (accepts ip) v (AcceptEnd.rejected <$> close) :=
  followsBind (followsWeaken (fun _ close here => acceptsRejected here close) follows)

theorem sessionFollows (here : At ip [.connection] false v) : Follows protocol (accepts ip) v (enterSession ip) := by
  refine acquireThen here (by decide) ?_ (fun w here _ => rejectedFollows (failureFollows .capacityLimited here))
  intro v here
  have gives {ended : AcceptEnd} (quits : ∀ w, At ip [.connection] false w → accepts ip w ended) :
      Follows protocol (accepts ip) v (do ask (.release .session); pure ended : Connection AcceptEnd) :=
    releaseThen here (by decide) (fun w here _ => quits w here)
  refine followsBind (followsPerform trivial ?_)
  intro yes w moved
  cases Option.some.inj moved
  cases yes with
  | false => exact gives (fun _ here => here)
  | true =>
    refine followsBind (followsPerform ⟨?_,here.counted⟩ ?_)
    · intro other
      rw [here.holds other]
      cases other <;> rfl
    · intro up w moved
      cases Option.some.inj moved
      rcases up with _ | _ | _
      · exact gives (fun _ here => here)
      · exact gives (fun _ here => here)
      · exact here

theorem acceptFollows (peer : Peer) (here : At peer.ip [.connection] false v) :
    Follows protocol (accepts peer.ip) v (serverAccept peer) := by
  refine followsBind (followsPerform trivial ?_)
  intro yes w moved
  cases Option.some.inj moved
  cases yes with
  | false => exact here
  | true =>
    refine acquireThen here (by decide) ?_ (fun w here refused => rejectedFollows (closeFollows here refused))
    intro v here
    refine peerAddrThen here ?_ (fun v here _ => releaseThen here (by decide) (fun w here _ => here))
    intro v here
    change Follows protocol (accepts peer.ip) v (if peer.users = 0 then _ else _)
    split
    · exact releaseThen here (by decide) (fun w here _ => here)
    · refine followsBind (followsPerform ⟨?_,here.counted⟩ ?_)
      · intro other
        rw [here.holds other]
        cases other <;> rfl
      · intro judged w moved
        cases Option.some.inj moved
        refine releaseThen here (by decide) ?_
        intro w here _
        rcases judged with _ | _ | failure
        · exact here
        · exact sessionFollows here
        · exact rejectedFollows (failureFollows failure here)

def handles (ip : IpAddr) (v : View) (ended : ConnectionEnd × Bool) : Prop :=
  At ip (if ended.2 then [.connection,.session] else [.connection]) false v

theorem handleFollows (peer : Peer) (here : At peer.ip [.connection] false v) :
    Follows protocol (handles peer.ip) v (handleServerConn peer) := by
  refine followsBind (followsWeaken ?_ (acceptFollows peer here))
  intro v ended here
  cases ended with
  | preAuth => exact here
  | internal => exact here
  | dropped => exact here
  | accepted =>
    refine followsBind (followsPerform trivial ?_)
    intro yes w moved
    cases Option.some.inj moved
    cases yes with
    | false => exact releaseThen here (by decide) (fun w here _ => here)
    | true =>
      have both : Exclusive v [.connection,.session] := by
        intro other
        rw [here.holds other]
        cases other <;> rfl
      refine followsBind (followsPerform ⟨both,here.counted⟩ ?_)
      intro left w moved
      cases Option.some.inj moved
      cases left with
      | false => exact releaseThen here (by decide) (fun w here _ => here)
      | true => exact ⟨here.ip,both,here.counted⟩

theorem connectionFollows (peer : Peer) : Follows protocol ends (fresh peer) (acceptConnection peer) := by
  have start : At peer.ip [] false (fresh peer) := ⟨rfl,fun _ => rfl,rfl⟩
  refine acquireThen start (by decide) ?_ (fun w here _ => ⟨here.holds,here.counted⟩)
  intro v here
  refine followsBind (followsWeaken ?_ (handleFollows peer here))
  rintro v ⟨ended,left⟩ here
  cases left with
  | false => exact releaseThen here (by decide) (fun w here _ => ⟨here.holds,here.counted⟩)
  | true =>
    refine releaseThen here (by decide) ?_
    intro v here _
    refine followsBind (followsPerform ⟨here.holds,here.counted⟩ ?_)
    intro _ w moved
    cases Option.some.inj moved
    exact releaseThen here (by decide) (fun w here _ => ⟨here.holds,here.counted⟩)

end Programs

section Steps
variable {s t : Limits} {views : List View} {v w : View} {i : Nat} {ip other : IpAddr} {limiter : Limiter}

def peerCount (s : Limits) (ip : IpAddr) : Nat := (s.peerCounts.lookup ip).getD 0

def holders (views : List View) (limiter : Limiter) : Nat := views.countP (fun v => v.holds limiter)

def relays (views : List View) (ip : IpAddr) : Nat := views.countP (fun v => v.counted && decide (v.ip = ip))

/- Permits are neither lost nor made up, and an address has at least as many fallbacks in the
table as it has; just as many, unless the lock was poisoned. -/
structure Balanced (s : Limits) (views : List View) : Prop where
  permits : ∀ limiter, s.available limiter + holders views limiter = limiter.permits
  entries : ∀ ip count, s.peerCounts.lookup ip = some count → 0 < count ∧ count ≤ fallbackLimits.maxPreAuthFallbacksPerIp
  counted : ∀ ip, relays views ip ≤ peerCount s ip
  exact : s.poisoned = false → ∀ ip, peerCount s ip ≤ relays views ip

theorem Balanced.most (balanced : Balanced s views) (ip : IpAddr) : peerCount s ip ≤ fallbackLimits.maxPreAuthFallbacksPerIp := by
  unfold peerCount
  cases found : s.peerCounts.lookup ip with
  | none => exact Nat.zero_le _
  | some count => exact (balanced.entries ip count found).2

theorem countPeerCases (s : Limits) (ip : IpAddr) :
    (s.poisoned = true ∧ countPeer s ip = (.poisoned,s)) ∨
    (s.poisoned = false ∧ fallbackLimits.maxPreAuthFallbacksPerIp ≤ peerCount s ip ∧ countPeer s ip = (.full,s)) ∨
    (s.poisoned = false ∧ peerCount s ip < fallbackLimits.maxPreAuthFallbacksPerIp ∧ ∃ counts,
      countPeer s ip = (.counted,{ s with peerCounts := counts }) ∧ counts.lookup ip = some (peerCount s ip + 1) ∧
      ∀ other, other ≠ ip → counts.lookup other = s.peerCounts.lookup other) := by
  unfold countPeer peerCount
  by_cases poisoned : s.poisoned = true
  · exact .inl ⟨poisoned,if_pos poisoned⟩
  · have unpoisoned := Bool.eq_false_iff.mpr poisoned
    refine .inr ?_
    have count : ((orInsert s.peerCounts ip).lookup ip).getD 0 = (s.peerCounts.lookup ip).getD 0 := by
      unfold orInsert
      cases found : s.peerCounts.lookup ip with
      | none => simp
      | some count => simp [found]
    have others {other : IpAddr} (differ : other ≠ ip) : (orInsert s.peerCounts ip).lookup other = s.peerCounts.lookup other := by
      unfold orInsert
      split
      · rfl
      · exact AList.lookup_insert_ne differ
    rw [if_neg poisoned]
    dsimp only
    rw [count]
    by_cases full : fallbackLimits.maxPreAuthFallbacksPerIp ≤ (s.peerCounts.lookup ip).getD 0
    · refine .inl ⟨unpoisoned,full,?_⟩
      -- a full entry is there already, so that nothing is inserted
      have there : (s.peerCounts.lookup ip).isSome = true := by
        cases found : s.peerCounts.lookup ip with
        | none =>
          rw [found] at full
          contradiction
        | some count => rfl
      rw [if_pos full,orInsert,if_pos there]
    · exact .inr ⟨unpoisoned,Nat.lt_of_not_le full,_,if_neg full,AList.lookup_insert _,
        fun other differ => (AList.lookup_insert_ne differ).trans (others differ)⟩

theorem uncountPeerCases (s : Limits) (ip : IpAddr) (unpoisoned : s.poisoned = false) : ∃ counts,
    uncountPeer s ip = { s with peerCounts := counts } ∧ (counts.lookup ip).getD 0 = peerCount s ip - 1 ∧
      counts.lookup ip ≠ some 0 ∧ ∀ other, other ≠ ip → counts.lookup other = s.peerCounts.lookup other := by
  unfold uncountPeer peerCount
  rw [if_neg (Bool.eq_false_iff.mp unpoisoned)]
  cases found : s.peerCounts.lookup ip with
  | none => exact ⟨s.peerCounts,rfl,by rw [found]; rfl,by simp [found],fun _ _ => rfl⟩
  | some count =>
    dsimp only
    split
    · rename_i many
      refine ⟨_,rfl,?_,?_,fun other differ => AList.lookup_insert_ne differ⟩
      · rw [AList.lookup_insert]
        rfl
      · rw [AList.lookup_insert]
        intro zero
        have zero := Option.some.inj zero
        omega
    · rename_i few
      refine ⟨_,rfl,?_,?_,fun other differ => AList.lookup_erase_ne differ⟩
      · rw [AList.lookup_erase,Option.getD_none,Option.getD_some]
        omega
      · rw [AList.lookup_erase]
        exact Option.some_ne_none 0 ∘ Eq.symm

theorem holdersSet (here : views[i]? = some v) (limiter : Limiter) :
    holders (views.set i w) limiter + (if v.holds limiter then 1 else 0) = holders views limiter + (if w.holds limiter then 1 else 0) :=
  Tasks.countSet w (fun v => v.holds limiter) here

theorem relaysSet (here : views[i]? = some v) (ip : IpAddr) :
    relays (views.set i w) ip + (if v.counted && decide (v.ip = ip) then 1 else 0) =
      relays views ip + (if w.counted && decide (w.ip = ip) then 1 else 0) :=
  Tasks.countSet w (fun v => v.counted && decide (v.ip = ip)) here

theorem holdersSame (here : views[i]? = some v) (holds : w.holds = v.holds) : holders (views.set i w) = holders views := by
  funext limiter
  have set := holdersSet (w := w) here limiter
  rw [holds] at set
  exact Nat.add_right_cancel set

theorem relaysSame (here : views[i]? = some v) (counted : w.counted = v.counted) (ip : w.ip = v.ip) :
    relays (views.set i w) = relays views := by
  funext other
  have set := relaysSet (w := w) here other
  rw [counted,ip] at set
  exact Nat.add_right_cancel set

theorem Balanced.same (balanced : Balanced s views) (here : views[i]? = some v) (holds : w.holds = v.holds)
    (counted : w.counted = v.counted) (ip : w.ip = v.ip) : Balanced s (views.set i w) := by
  refine ⟨?_,balanced.entries,?_,?_⟩
  · rw [holdersSame here holds]
    exact balanced.permits
  · rw [relaysSame here counted ip]
    exact balanced.counted
  · rw [relaysSame here counted ip]
    exact balanced.exact

theorem Balanced.turn {available : Nat} {held : Bool} (balanced : Balanced s views) (here : views[i]? = some v)
    (moved : available + (if held then 1 else 0) = s.available limiter + (if v.holds limiter then 1 else 0)) :
    Balanced { s with available := Function.update s.available limiter available }
      (views.set i { v with holds := Function.update v.holds limiter held }) := by
  refine ⟨?_,balanced.entries,?_,?_⟩
  · intro other
    have total := balanced.permits other
    have set := holdersSet (w := { v with holds := Function.update v.holds limiter held }) here other
    by_cases same : other = limiter
    · subst same
      simp only [Function.update_self] at set ⊢
      omega
    · simp only [Function.update_of_ne same] at set ⊢
      omega
  · rw [relaysSame (w := { v with holds := Function.update v.holds limiter held }) here rfl rfl]
    exact balanced.counted
  · rw [relaysSame (w := { v with holds := Function.update v.holds limiter held }) here rfl rfl]
    exact balanced.exact

theorem peerCountOther {counts : AList (fun _ : IpAddr => Nat)} (same : counts.lookup other = s.peerCounts.lookup other) :
    peerCount { s with peerCounts := counts } other = peerCount s other := by
  rw [peerCount,peerCount,same]

theorem Balanced.count {counts : AList (fun _ : IpAddr => Nat)} (balanced : Balanced s views) (here : views[i]? = some v)
    (uncounted : v.counted = false) (room : peerCount s v.ip < fallbackLimits.maxPreAuthFallbacksPerIp)
    (mine : counts.lookup v.ip = some (peerCount s v.ip + 1))
    (others : ∀ other, other ≠ v.ip → counts.lookup other = s.peerCounts.lookup other) :
    Balanced { s with peerCounts := counts } (views.set i { v with counted := true }) := by
  have set (other : IpAddr) := relaysSet (w := { v with counted := true }) here other
  rw [uncounted] at set
  have counted : peerCount { s with peerCounts := counts } v.ip = peerCount s v.ip + 1 := by rw [peerCount,mine]; rfl
  refine ⟨?_,?_,?_,?_⟩
  · rw [holdersSame (w := { v with counted := true }) here rfl]
    exact balanced.permits
  · intro other count found
    by_cases same : other = v.ip
    · subst same
      cases Option.some.inj (mine.symm.trans found)
      exact ⟨Nat.succ_pos _,room⟩
    · exact balanced.entries other count ((others other same).symm.trans found)
  · intro other
    have before := balanced.counted other
    have set := set other
    by_cases same : other = v.ip
    · subst same
      simp at set
      omega
    · rw [peerCountOther (others other same)]
      simp [Ne.symm same] at set
      omega
  · intro unpoisoned other
    have before := balanced.exact unpoisoned other
    have set := set other
    by_cases same : other = v.ip
    · subst same
      simp at set
      omega
    · rw [peerCountOther (others other same)]
      simp [Ne.symm same] at set
      omega

theorem Balanced.uncount (balanced : Balanced s views) (here : views[i]? = some v) (counted : v.counted = true) :
    Balanced (uncountPeer s v.ip) (views.set i { v with counted := false }) := by
  have set (other : IpAddr) := relaysSet (w := { v with counted := false }) here other
  rw [counted] at set
  have permits : ∀ limiter, s.available limiter + holders (views.set i { v with counted := false }) limiter = limiter.permits := by
    rw [holdersSame (w := { v with counted := false }) here rfl]
    exact balanced.permits
  by_cases poisoned : s.poisoned = true
  · rw [uncountPeer,if_pos poisoned]
    refine ⟨permits,balanced.entries,?_,fun no => absurd poisoned (Bool.eq_false_iff.mp no)⟩
    intro other
    have before := balanced.counted other
    have set := set other
    simp only [Bool.false_and,Bool.false_eq_true,if_false] at set
    omega
  · have unpoisoned := Bool.eq_false_iff.mpr poisoned
    obtain ⟨counts,eq,mine,positive,others⟩ := uncountPeerCases s v.ip unpoisoned
    rw [eq]
    have both (other : IpAddr) : relays (views.set i { v with counted := false }) other = peerCount { s with peerCounts := counts } other := by
      have before := balanced.counted other
      have exact := balanced.exact unpoisoned other
      have set := set other
      by_cases same : other = v.ip
      · subst same
        simp at set
        rw [peerCount,mine]
        omega
      · rw [peerCountOther (others other same)]
        simp [Ne.symm same] at set
        omega
    refine ⟨permits,?_,fun other => Nat.le_of_eq (both other),fun _ other => Nat.le_of_eq (both other).symm⟩
    intro other count found
    by_cases same : other = v.ip
    · subst same
      have within := balanced.most v.ip
      rw [found] at mine positive
      have left : count = peerCount s v.ip - 1 := mine
      exact ⟨Nat.pos_of_ne_zero (fun zero => positive (congrArg some zero)),by omega⟩
    · exact balanced.entries other count ((others other same).symm.trans found)

theorem balancedActed {e : Op} {choice : Choice} {a : Answer e} (balanced : Balanced s views) (here : views[i]? = some v)
    (allowed : allows v e) (acted : act s e choice = some (a,t)) : ∃ w, after v e a = some w ∧ Balanced t (views.set i w) := by
  have stays : Balanced s (views.set i v) := balanced.same here rfl rfl rfl
  have marked : Balanced s (views.set i { v with refused := true }) := balanced.same here rfl rfl rfl
  cases e with
  | tryAcquire limiter =>
    cases choice <;> cases acted
    refine ⟨_,rfl,?_⟩
    have free : v.holds limiter = false := allowed
    unfold tryAcquire
    by_cases spare : 0 < s.available limiter
    · rw [if_pos spare]
      refine balanced.turn here ?_
      rw [free,if_pos rfl,if_neg Bool.false_ne_true]
      omega
    · rw [if_neg spare]
      exact marked
  | release limiter =>
    cases choice <;> cases acted
    refine ⟨_,rfl,balanced.turn here ?_⟩
    rw [allowed.1,if_pos rfl,if_neg Bool.false_ne_true]
  | countPeer ip =>
    obtain ⟨rfl,uncounted,_⟩ := allowed
    cases choice <;> cases acted
    refine ⟨_,rfl,?_⟩
    obtain ⟨_,eq⟩ | ⟨_,_,eq⟩ | ⟨_,room,counts,eq,mine,others⟩ := countPeerCases s v.ip
    · rw [eq]
      exact marked
    · rw [eq]
      exact marked
    · rw [eq]
      exact balanced.count here uncounted room mine others
  | uncountPeer ip =>
    obtain ⟨rfl,counted⟩ := allowed
    cases choice <;> cases acted
    exact ⟨_,rfl,balanced.uncount here counted⟩
  | peerAddr =>
    cases choice <;> cases acted
    refine ⟨_,rfl,?_⟩
    cases a
    · exact marked
    · exact stays
  | forward =>
    cases choice <;> cases acted
    · exact ⟨_,rfl,stays⟩
    · rename_i relayed
      refine ⟨_,rfl,?_⟩
      cases relayed
      · exact marked
      · exact stays
  | _ => cases choice <;> cases acted <;> exact ⟨_,rfl,stays⟩

theorem balancedDrifted {choice : Choice} (balanced : Balanced s views) (drifted : drift s choice = some t) : Balanced t views := by
  cases choice <;> try contradiction
  cases Option.some.inj drifted
  exact ⟨balanced.permits,balanced.entries,balanced.counted,fun no => by contradiction⟩

theorem balancedSpawned (peer : Peer) (balanced : Balanced s views) : Balanced s (views ++ [fresh peer]) := by
  have holders (limiter : Limiter) : holders (views ++ [fresh peer]) limiter = holders views limiter := by
    unfold Admission.holders
    rw [List.countP_append]
    rfl
  have relays (ip : IpAddr) : relays (views ++ [fresh peer]) ip = relays views ip := by
    unfold Admission.relays
    rw [List.countP_append]
    rfl
  refine ⟨?_,balanced.entries,?_,?_⟩
  · exact fun limiter => holders limiter ▸ balanced.permits limiter
  · exact fun ip => relays ip ▸ balanced.counted ip
  · exact fun unpoisoned ip => relays ip ▸ balanced.exact unpoisoned ip

theorem connectionsBalanced {s : Connections} {ok : Connections → Label Peer Choice → Prop}
    (reach : Reach (poolStep world acceptConnection) ok ⟨{},[]⟩ s) : Agrees protocol ends fresh Balanced s := by
  refine poolKeeps ⟨fun _ => rfl,?_,fun _ => Nat.zero_le _,fun _ _ => Nat.zero_le _⟩ connectionFollows balancedSpawned
    (fun balanced here _ _ _ allowed acted => balancedActed balanced here allowed acted)
    (fun balanced _ drifted => balancedDrifted balanced drifted) reach
  intro ip count found
  contradiction

end Steps

section Runs
variable {s : Connections} {task : ConnectionTask} {peer : Peer} {history : List ((e : Op) × Answer e)} {v : View} {limiter : Limiter}
  {ip : IpAddr}

def heldAfter (limiter : Limiter) (held : Bool) : ((e : Op) × Answer e) → Bool
  | ⟨.tryAcquire l,got⟩ => if l = limiter then held || got else held
  | ⟨.release l,_⟩ => if l = limiter then false else held
  | _ => held

def heldBy (limiter : Limiter) (history : List ((e : Op) × Answer e)) : Bool := history.foldl (heldAfter limiter) false

def countedAfter (counted : Bool) : ((e : Op) × Answer e) → Bool
  | ⟨.countPeer _,answer⟩ => counted || decide (answer = .counted)
  | ⟨.uncountPeer _,_⟩ => false
  | _ => counted

def countedBy (history : List ((e : Op) × Answer e)) : Bool := history.foldl countedAfter false

def refusal : ((e : Op) × Answer e) → Bool
  | ⟨.tryAcquire _,got⟩ => !got
  | ⟨.countPeer _,answer⟩ => decide (answer ≠ .counted)
  | ⟨.peerAddr,there⟩ => !there
  | ⟨.forward,relayed⟩ => decide (relayed = some false)
  | _ => false

structure Recorded (peer : Peer) (history : List ((e : Op) × Answer e)) (v : View) : Prop where
  ip : v.ip = peer.ip
  held : ∀ limiter, v.holds limiter = heldBy limiter history
  counted : v.counted = countedBy history
  refused : v.refused = history.any refusal

theorem recordedStep {e : Op} {a : Answer e} {w : View} (moved : after v e a = some w) :
    w.ip = v.ip ∧ (∀ limiter, w.holds limiter = heldAfter limiter (v.holds limiter) ⟨e,a⟩) ∧
      w.counted = countedAfter v.counted ⟨e,a⟩ ∧ w.refused = (v.refused || refusal ⟨e,a⟩) := by
  cases e with
  | tryAcquire l =>
    cases a with
    | false =>
      cases Option.some.inj moved
      exact ⟨rfl,fun limiter => by simp [heldAfter],rfl,by simp [refusal]⟩
    | true =>
      cases Option.some.inj moved
      refine ⟨rfl,?_,rfl,by simp [refusal]⟩
      intro limiter
      by_cases same : limiter = l
      · subst same
        simp [heldAfter]
      · simp [heldAfter,same,Ne.symm same]
  | release l =>
    cases Option.some.inj moved
    refine ⟨rfl,?_,rfl,by simp [refusal]⟩
    intro limiter
    by_cases same : limiter = l
    · subst same
      simp [heldAfter]
    · simp [heldAfter,same,Ne.symm same]
  | countPeer ip =>
    cases a <;> cases Option.some.inj moved
    · exact ⟨rfl,fun _ => rfl,by simp [countedAfter],by simp [refusal]⟩
    · exact ⟨rfl,fun _ => rfl,by simp [countedAfter],by simp [refusal]⟩
    · exact ⟨rfl,fun _ => rfl,by simp [countedAfter],by simp [refusal]⟩
  | peerAddr =>
    cases a <;> cases Option.some.inj moved
    · exact ⟨rfl,fun _ => rfl,rfl,by simp [refusal]⟩
    · exact ⟨rfl,fun _ => rfl,rfl,by simp [refusal]⟩
  | forward =>
    rcases a with _ | _ | _ <;> cases Option.some.inj moved
    · exact ⟨rfl,fun _ => rfl,rfl,by simp [refusal]⟩
    · exact ⟨rfl,fun _ => rfl,rfl,by simp [refusal]⟩
    · exact ⟨rfl,fun _ => rfl,rfl,by simp [refusal]⟩
  | _ =>
    cases Option.some.inj moved
    exact ⟨rfl,fun _ => rfl,rfl,by simp [refusal]⟩

theorem recorded (led : Led protocol (fresh peer) history v) : Recorded peer history v := by
  induction led with
  | start => exact ⟨rfl,fun _ => rfl,rfl,rfl⟩
  | step before allowed moved ih =>
    obtain ⟨ip,held,counted,refused⟩ := recordedStep moved
    refine ⟨ip.trans ih.ip,?_,?_,?_⟩
    · intro limiter
      rw [held,ih.held,heldBy,heldBy,List.foldl_append]
      rfl
    · rw [counted,ih.counted,countedBy,countedBy,List.foldl_append]
      rfl
    · rw [refused,ih.refused,List.any_append,List.any_cons,List.any_nil,Bool.or_false]

def probe : Peer := ⟨.v4 ⟨203,0,113,9⟩,1⟩

def probing : List (Label Peer Choice) :=
  [.spawn probe,.move 0 .run,.move 0 (.answers true),.move 0 .run,.move 0 (.answers true),.move 0 (.judged (some .authFailed)),.move 0 .run,
    .move 0 (.answers true),.move 0 .run,.move 0 .run]

def unreached : List (Label Peer Choice) := probing ++ ([.move 0 (.answers false),.move 0 .run,.move 0 .run] : List (Label Peer Choice))

/- In every run a permit is with the semaphore or with a connection that has got it and not
returned it; none is lost and none made up. So a permit is refused only when as many
connections as there are permits hold one. -/
theorem permitsConserved (reach : Reach (poolStep world acceptConnection) Always ⟨{},[]⟩ s) (limiter : Limiter) :
    s.shared.available limiter + s.tasks.countP (fun task => heldBy limiter task.history) = limiter.permits ∧
      ((tryAcquire s.shared limiter).1 = false ↔ s.tasks.countP (fun task => heldBy limiter task.history) = limiter.permits) := by
  obtain ⟨views,stand,balanced⟩ := connectionsBalanced reach
  have same : s.tasks.countP (fun task => heldBy limiter task.history) = holders views limiter := by
    refine Nat.le_antisymm (countRelated stand ?_) (countRelated stand.flip ?_)
    · intro v task stands held
      rw [(recorded stands.led).held]
      exact held
    · intro task v stands held
      rw [(recorded stands.led).held] at held
      exact held
  have total := balanced.permits limiter
  rw [same]
  refine ⟨total,?_⟩
  unfold tryAcquire
  split
  · rename_i spare
    exact ⟨fun no => by contradiction,fun all => by omega⟩
  · rename_i spare
    exact ⟨fun _ => by omega,fun _ => rfl⟩

theorem permitsConservedOnce : ∃ s : Connections, Reach (poolStep world acceptConnection) Always ⟨{},[]⟩ s ∧
    s.tasks.countP (fun task => heldBy .fallback task.history) = 1 ∧ s.shared.available .fallback = 511 := by
  have ran : (checked (poolStep world acceptConnection) Always ⟨{},[]⟩ probing).any (fun s =>
      decide (s.tasks.countP (fun task => heldBy .fallback task.history) = 1)) = true := by
    rfl
  obtain ⟨s,reach,one⟩ := checkedReaches ran
  have one := of_decide_eq_true one
  have total := (permitsConserved reach .fallback).1
  rw [one] at total
  exact ⟨s,reach,one,Nat.add_right_cancel (m := 1) total⟩

theorem peersCounted (reach : Reach (poolStep world acceptConnection) Always ⟨{},[]⟩ s) (unpoisoned : s.shared.poisoned = false)
    (ip : IpAddr) : peerCount s.shared ip = s.tasks.countP (fun task => countedBy task.history && decide (task.job.ip = ip)) ∧
      ((countPeer s.shared ip).1 = .full ↔
        s.tasks.countP (fun task => countedBy task.history && decide (task.job.ip = ip)) = fallbackLimits.maxPreAuthFallbacksPerIp) := by
  obtain ⟨views,stand,balanced⟩ := connectionsBalanced reach
  have same : s.tasks.countP (fun task => countedBy task.history && decide (task.job.ip = ip)) = relays views ip := by
    refine Nat.le_antisymm (countRelated stand ?_) (countRelated stand.flip ?_)
    · intro v task stands held
      have record := recorded stands.led
      rw [record.counted,record.ip]
      exact held
    · intro task v stands held
      have record := recorded stands.led
      rw [record.counted,record.ip] at held
      exact held
  have count : peerCount s.shared ip = relays views ip := Nat.le_antisymm (balanced.exact unpoisoned ip) (balanced.counted ip)
  have most := balanced.most ip
  rw [same]
  refine ⟨count,?_⟩
  obtain ⟨poisoned,_⟩ | ⟨_,full,eq⟩ | ⟨_,room,_,eq,_⟩ := countPeerCases s.shared ip
  · rw [unpoisoned] at poisoned
    contradiction
  · rw [eq]
    exact ⟨fun _ => by omega,fun _ => rfl⟩
  · rw [eq]
    exact ⟨fun no => by contradiction,fun all => by omega⟩

theorem peersCountedOnce : ∃ s : Connections, Reach (poolStep world acceptConnection) Always ⟨{},[]⟩ s ∧ s.shared.poisoned = false ∧
    s.tasks.countP (fun task => countedBy task.history && decide (task.job.ip = probe.ip)) = 1 ∧ peerCount s.shared probe.ip = 1 := by
  have ran : (checked (poolStep world acceptConnection) Always ⟨{},[]⟩ probing).any (fun s => decide (s.shared.poisoned = false ∧
      s.tasks.countP (fun task => countedBy task.history && decide (task.job.ip = probe.ip)) = 1)) = true := by
    rfl
  obtain ⟨s,reach,both⟩ := checkedReaches ran
  obtain ⟨unpoisoned,one⟩ := of_decide_eq_true both
  exact ⟨s,reach,unpoisoned,one,(peersCounted reach unpoisoned probe.ip).1.trans one⟩

def working (task : ConnectionTask) (ops : List Op) : Bool := task.program.upcoming.any (fun e => decide (e ∈ ops))

theorem workingAllows {ops : List Op} (stands : Stands protocol ends fresh v task) (works : working task ops = true) :
    ∃ e ∈ ops, allows v e := by
  obtain ⟨e,next,member⟩ := (Option.any_eq_true _ _).mp works
  obtain ⟨rest,program⟩ := upcomingCall next
  have owes := stands.owes
  rw [program] at owes
  exact ⟨e,of_decide_eq_true member,owes.1⟩

theorem admissionBounded (reach : Reach (poolStep world acceptConnection) Always ⟨{},[]⟩ s) :
    s.tasks.countP (fun task => working task [.judge]) ≤ Limiter.handshake.permits ∧
    s.tasks.countP (fun task => working task [.establish,.serve,.linger]) ≤ Limiter.session.permits ∧
    s.tasks.countP (fun task => working task [.forward]) ≤ Limiter.fallback.permits ∧
    ∀ ip, s.tasks.countP (fun task => working task [.forward] && decide (task.job.ip = ip)) ≤ fallbackLimits.maxPreAuthFallbacksPerIp := by
  obtain ⟨views,stand,balanced⟩ := connectionsBalanced reach
  have bounds {ops : List Op} {limiter : Limiter} (holds : ∀ v e, e ∈ ops → allows v e → v.holds limiter = true) :
      s.tasks.countP (fun task => working task ops) ≤ limiter.permits := by
    have total := balanced.permits limiter
    refine Nat.le_trans (countRelated stand ?_) (Nat.le_trans (Nat.le_add_left _ _) (Nat.le_of_eq total))
    intro v task stands works
    obtain ⟨e,member,allowed⟩ := workingAllows stands works
    exact holds v e member allowed
  refine ⟨bounds ?_,bounds ?_,bounds ?_,?_⟩
  · intro v e member allowed
    cases List.mem_singleton.mp member
    exact allowed.1 .handshake
  · intro v e member allowed
    simp only [List.mem_cons,List.not_mem_nil,or_false] at member
    obtain rfl | rfl | rfl := member
    · exact allowed.1 .session
    · exact allowed.1 .session
    · exact allowed.1 .session
  · intro v e member allowed
    cases List.mem_singleton.mp member
    exact allowed.1 .fallback
  · intro ip
    refine Nat.le_trans (countRelated stand ?_) (Nat.le_trans (balanced.counted ip) (balanced.most ip))
    intro v task stands works
    obtain ⟨works,mine⟩ := Bool.and_eq_true_iff.mp works
    obtain ⟨e,member,allowed⟩ := workingAllows stands works
    cases List.mem_singleton.mp member
    rw [allowed.2,(recorded stands.led).ip]
    exact mine

theorem admissionBoundedOnce : ∃ s : Connections, Reach (poolStep world acceptConnection) Always ⟨{},[]⟩ s ∧
    s.tasks.countP (fun task => working task [.forward] && decide (task.job.ip = probe.ip)) = 1 ∧
    s.tasks.countP (fun task => working task [.forward] && decide (task.job.ip = probe.ip)) ≤ 16 := by
  have ran : (checked (poolStep world acceptConnection) Always ⟨{},[]⟩ probing).any (fun s =>
      decide (s.tasks.countP (fun task => working task [.forward] && decide (task.job.ip = probe.ip)) = 1)) = true := by
    rfl
  obtain ⟨s,reach,one⟩ := checkedReaches ran
  exact ⟨s,reach,of_decide_eq_true one,(admissionBounded reach).2.2.2 probe.ip⟩

theorem permitsReturned (reach : Reach (poolStep world acceptConnection) Always ⟨{},[]⟩ s)
    (finished : ∀ task ∈ s.tasks, task.program.outcome ≠ none) :
    s.shared.available = Limiter.permits ∧ (s.shared.poisoned = false → s.shared.peerCounts.entries = []) := by
  obtain ⟨views,stand,balanced⟩ := connectionsBalanced reach
  have free : ∀ v ∈ views, Exclusive v [] ∧ v.counted = false := by
    intro v member
    obtain ⟨i,place⟩ := List.mem_iff_getElem?.mp member
    obtain ⟨task,there,stands⟩ := forallGet stand.flip place
    obtain ⟨result,came⟩ := Option.ne_none_iff_exists'.mp (finished task (List.mem_of_getElem? there))
    have owes := stands.owes
    rw [outcomeDone came] at owes
    exact owes
  constructor
  · funext limiter
    have none : holders views limiter = 0 := by
      refine List.countP_eq_zero.mpr ?_
      intro v member held
      rw [(free v member).1 limiter] at held
      contradiction
    have total := balanced.permits limiter
    omega
  · intro unpoisoned
    cases entries : s.shared.peerCounts.entries with
    | nil => rfl
    | cons e rest =>
      have found : s.shared.peerCounts.lookup e.1 = some e.2 :=
        AList.mem_lookup_iff.mpr (by rw [entries]; exact List.mem_cons_self)
      have none : relays views e.1 = 0 := by
        refine List.countP_eq_zero.mpr ?_
        intro v member counted
        rw [(free v member).2] at counted
        contradiction
      have positive := (balanced.entries _ _ found).1
      have count := balanced.exact unpoisoned e.1
      rw [peerCount,found,Option.getD_some] at count
      omega

theorem permitsReturnedOnce : ∃ s : Connections, Reach (poolStep world acceptConnection) Always ⟨{},[]⟩ s ∧ s.tasks.length = 1 ∧
    s.shared.available = Limiter.permits := by
  have ran : (checked (poolStep world acceptConnection) Always ⟨{},[]⟩ (unreached ++ ([.move 0 .run,.move 0 .run] : List (Label Peer Choice)))).any (fun s =>
      decide (s.tasks.length = 1 ∧ ∀ task ∈ s.tasks, task.program.outcome ≠ none)) = true := by
    rfl
  obtain ⟨s,reach,both⟩ := checkedReaches ran
  obtain ⟨one,finished⟩ := of_decide_eq_true both
  exact ⟨s,reach,one,(permitsReturned reach finished).1⟩

/- A connection that is closed without being forwarded was refused: by a semaphore, by the
table, by its own socket or by the endpoint. While it is drained it holds nothing but its
place among the connections. -/
theorem closedWasRefused (reach : Reach (poolStep world acceptConnection) Always ⟨{},[]⟩ s) (there : task ∈ s.tasks)
    (closing : task.program.upcoming = some .drain) :
    task.history.any refusal = true ∧ ∀ limiter, heldBy limiter task.history = decide (limiter = .connection) := by
  obtain ⟨views,stand,_⟩ := connectionsBalanced reach
  obtain ⟨i,place⟩ := List.mem_iff_getElem?.mp there
  obtain ⟨v,_,stands⟩ := forallGet stand place
  have record := recorded stands.led
  have works : working task [.drain] = true := by
    rw [working,closing]
    rfl
  obtain ⟨e,member,allowed⟩ := workingAllows stands works
  cases List.mem_singleton.mp member
  obtain ⟨alone,_,refused⟩ := allowed
  refine ⟨record.refused ▸ refused,?_⟩
  intro limiter
  rw [← record.held,alone limiter]
  simp

theorem closedWasRefusedOnce : ∃ (s : Connections) (task : ConnectionTask), Reach (poolStep world acceptConnection) Always ⟨{},[]⟩ s ∧
    s.tasks[0]? = some task ∧ task.program.upcoming = some .drain ∧ task.history.any refusal = true := by
  have ran : (checked (poolStep world acceptConnection) Always ⟨{},[]⟩ unreached).any (fun s =>
      (s.tasks[0]?).any (fun task => decide (task.program.upcoming = some .drain))) = true := by
    rfl
  obtain ⟨s,reach,first⟩ := checkedReaches ran
  obtain ⟨task,there,closing⟩ := (Option.any_eq_true _ _).mp first
  have closing := of_decide_eq_true closing
  exact ⟨s,task,reach,there,closing,(closedWasRefused reach (List.mem_of_getElem? there) closing).1⟩

end Runs

end KanoTls.Admission
