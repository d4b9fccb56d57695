import KanoTls.Machine
import KanoTls.Tasks
import KanoTls.Lifecycle
import Mathlib.Algebra.BigOperators.Group.List.Basic
import Mathlib.Algebra.Order.BigOperators.Group.List

/-! The connection pool of the client: callers that wait for a stream, the replenisher
under `spawn_lock`, and the tasks it spawns. The `connections` map is the list of its
entries; a connection is taken by its place. -/
namespace KanoTls.Pool
open Lifecycle (ConnectionState)

structure Connection where
  state : ConnectionState := .active
  alive : Bool := true
  closing : Bool := false
  streams : Nat := 0
  deriving DecidableEq, Repr

def newConnection : Connection := {}

def live (c : Connection) : Bool := c.state ≠ .closed && c.alive
def open' (c : Connection) : Bool := live c && !c.closing
def active (c : Connection) : Bool := open' c && c.state = .active
def inUse (c : Connection) : Nat := if open' c then c.streams else 0

/- A spawned task: it connects, registers its connection or drops it, and counts itself
out. -/
inductive SpawnPc where
  | connecting | registering | registered | failed | done
  deriving DecidableEq, Repr

/- `replenish_locked` with its two calls of `schedule_spawns_locked`; `later` is what the
second one is called with. -/
inductive ReplenishPc where
  | idle | locked
  | counted (active live streams : Nat)
  | loaded (active live streams : Nat) (pending : Int)
  | recount (count later : Nat)
  | reload (count later live : Nat)
  | spawning (count later : Nat)
  deriving DecidableEq, Repr

structure Config where
  targetPoolSize : Nat
  initialConnectionCount : Nat
  maxStreamsPerSession : Nat

def Config.maxLiveConnections (c : Config) : Nat := c.targetPoolSize + max c.initialConnectionCount 1
def Config.streamsPerConnectionTarget (c : Config) : Nat := max c.maxStreamsPerSession 1

/- `pending_spawns` is a `usize`: below zero it has wrapped. -/
structure State where
  config : Config
  started : Bool := false
  connections : List Connection := []
  pending : Int := 0
  waiters : Nat := 0
  spawns : List SpawnPc := []
  replenish : ReplenishPc := .idle

def desiredActiveConnectionCount (c : Config) (waiters active streams : Nat) : Nat :=
  if waiters = 0 then 0
  else
    let target := c.streamsPerConnectionTarget
    let desired := (max (waiters + streams) 1 + (target - 1)) / target
    if active = 0 then min (min desired 1) c.targetPoolSize else min desired c.targetPoolSize

def usizeRange : Int := 18446744073709551616

def pendingSpawns (n : Int) : Nat := (if n < 0 then n + usizeRange else n).toNat

inductive Action where
  | arrive | leave
  | lock | abandon
  | count | loadPending | loadWaiters | recount | reload | spawn
  | connect (i : Nat) (ok : Bool)
  | register (i : Nat)
  | finish (i : Nat)
  | openStream (i : Nat) | endStream (i : Nat)
  | drain (i : Nat) | close (i : Nat) | die (i : Nat) | remove (i : Nat)
  deriving DecidableEq, Repr

def liveCount (s : State) : Nat := s.connections.countP live
def activeCount (s : State) : Nat := s.connections.countP active
def streamsInUse (s : State) : Nat := (s.connections.map inUse).sum

def plan (s : State) (active live streams : Nat) (pending : Int) : ReplenishPc :=
  let pending := pendingSpawns pending
  let desired := desiredActiveConnectionCount s.config s.waiters active streams
  let missing := min (desired - (active + pending)) (s.config.maxLiveConnections - (live + pending))
  if missing = 0 then .idle
  else if live + pending = 0 then
    let immediate := min missing (max s.config.initialConnectionCount 1)
    .recount immediate (missing - immediate)
  else .recount missing 0

def next (later : Nat) : ReplenishPc := if later = 0 then .idle else .recount later 0

def changes (s : State) (i : Nat) (f : Connection → Connection) : Option State :=
  match s.connections[i]? with
  | none => none
  | some c => some {s with connections := s.connections.set i (f c)}

def goes (s : State) (i : Nat) (pc : SpawnPc) : State := {s with spawns := s.spawns.set i pc}

/- `abandon`: the caller whose `open_stream` replenishes is dropped where it awaits. -/
def step (s : State) : Action → Option State
  | .arrive => some {s with waiters := s.waiters + 1,started := true}
  | .leave => if s.waiters = 0 then none else some {s with waiters := s.waiters - 1}
  | .lock => if s.started ∧ s.replenish = .idle then some {s with replenish := .locked} else none
  | .abandon =>
    match s.replenish with
    | .locked | .recount _ _ => some {s with replenish := .idle}
    | _ => none
  | .count =>
    if s.replenish = .locked then
      some {s with replenish := .counted (activeCount s) (liveCount s) (streamsInUse s)}
    else none
  | .loadPending =>
    match s.replenish with
    | .counted active live streams => some {s with replenish := .loaded active live streams s.pending}
    | _ => none
  | .loadWaiters =>
    match s.replenish with
    | .loaded active live streams pending => some {s with replenish := plan s active live streams pending}
    | _ => none
  | .recount =>
    match s.replenish with
    | .recount count later => some {s with replenish := .reload count later (liveCount s)}
    | _ => none
  | .reload =>
    match s.replenish with
    | .reload count later live =>
      let count := min count (s.config.maxLiveConnections - (live + pendingSpawns s.pending))
      some {s with replenish := if count = 0 then next later else .spawning count later}
    | _ => none
  | .spawn =>
    match s.replenish with
    | .spawning count later =>
      some {s with pending := s.pending + 1,spawns := s.spawns ++ [.connecting],
                   replenish := if count ≤ 1 then next later else .spawning (count - 1) later}
    | _ => none
  | .connect i ok => if s.spawns[i]? = some .connecting then some (goes s i (if ok then .registering else .failed)) else none
  | .register i =>
    if s.spawns[i]? = some .registering then
      let t := goes s i .registered
      some (if liveCount s ≥ s.config.maxLiveConnections then t else {t with connections := s.connections ++ [newConnection]})
    else none
  | .finish i =>
    if s.spawns[i]? = some .registered ∨ s.spawns[i]? = some .failed then
      some {goes s i .done with pending := s.pending - 1}
    else none
  | .openStream i => changes s i (fun c => {c with streams := c.streams + 1})
  | .endStream i => changes s i (fun c => {c with streams := c.streams - 1})
  | .drain i => changes s i (fun c => {c with state := if c.state = .active then .draining else c.state})
  | .close i => changes s i (fun c => {c with state := .closed,closing := true,alive := false})
  | .die i => changes s i (fun c => {c with closing := true,alive := false})
  | .remove i => if i < s.connections.length then some {s with connections := s.connections.eraseIdx i} else none

def start (config : Config) : State := {config := config}

abbrev Run (ok : State → Action → Prop) (config : Config) : State → Prop := Machine.Reach step ok (start config)

def unfinished (pc : SpawnPc) : Bool := pc ≠ .done

def outside (pc : SpawnPc) : Bool := pc = .connecting || pc = .registering || pc = .failed

def inside (pc : SpawnPc) : Bool := pc = .registered

end KanoTls.Pool
