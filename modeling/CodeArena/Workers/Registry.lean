import CodeArena.Lib.Machine
import Mathlib.Logic.Function.Basic
import Mathlib.Tactic.Common

/-!
# The worker registry

One worker's key in Redis, and the calls of its process that read and write it: the
registration and the update to READY of `startWorker`, the heartbeats of its timer, and the
two updates of `shutdown`.  `heartbeatWorker` and `updateWorkerStatus` are a GET followed by
a SET, and between the two every other call may move and the key may expire.

A heartbeat takes over the status of the record that it read, whatever is stored by the time
of its SET; where it read nothing, it makes up a record that is READY.

## The log

`log` lists the statuses stored since the last registration, the newest first, and `epoch`
counts how often the status has changed.  No step reads them.

## Honest boundary

Redis may refuse any command, and the call then ends without having had an effect.  The
process id and the host name of a record are left out, and so is the option of
`startWorker` that switches the registry off.  A second call of `shutdown` returns at
once, so there is one.
-/

namespace CodeArena.Workers

open CodeArena.Lib

/-- A point in time, in milliseconds. -/
abbrev Time := Nat

/-- The operational statuses, in their order. -/
inductive Status where
  | starting
  | ready
  | draining
  | stopped
deriving DecidableEq, Repr

/-- The place of a status in the order. -/
def Status.rank : Status → Nat
  | starting => 0
  | ready => 1
  | draining => 2
  | stopped => 3

/-- What is stored under the key of a worker. -/
structure Record where
  status : Status
  concurrency : Option Nat
  startedAt : Time
  lastHeartbeat : Time
deriving DecidableEq, Repr

/-! ## The functions of the registry -/

/-- The record of `registerWorker`. -/
def registered (now : Time) (concurrency : Nat) : Record := ⟨.starting, some concurrency, now, now⟩

/-- The record that `heartbeatWorker` stores, from the one it read. -/
def heartbeatRecord (now : Time) : Option Record → Record
  | some record => { record with lastHeartbeat := now }
  | none => ⟨.ready, none, now, now⟩

/-- The record that `updateWorkerStatus` stores, from the one it read. -/
def updateRecord (status : Status) (now : Time) : Option Record → Record
  | some record => { record with status, lastHeartbeat := now }
  | none => ⟨status, none, now, now⟩

/-- A call of the registry in flight. -/
inductive Call where
  /-- Awaiting the GET. -/
  | getting
  /-- Awaiting the SET of a record; whether the GET found one, and the epoch of the GET. -/
  | setting (record : Record) (found : Bool) (epoch : Nat)
deriving DecidableEq, Repr

/-- A command of a call, and whether Redis carries it out. -/
inductive Command where
  | get (ok : Bool)
  | set (ok : Bool)
deriving DecidableEq, Repr

/-- What a command makes of a call, which may be over, and the record it stores. -/
def Call.step (stored : Option Record) (epoch : Nat) (write : Option Record → Record) :
    Call → Command → Option (Option Call × Option Record)
  | getting, .get true => some (some (setting (write stored) stored.isSome epoch), none)
  | getting, .get false => some (none, none)
  | setting record _ _, .set true => some (none, some record)
  | setting _ _ _, .set false => some (none, none)
  | _, _ => none

/-! ## The process -/

/-- Where `startWorker` stands. -/
inductive Startup where
  /-- Awaiting the registration. -/
  | registering
  /-- Awaiting `waitUntilReady`. -/
  | initializing
  /-- Awaiting the update to READY. -/
  | publishing (call : Call)
  /-- Returned: the worker is set, and its timer is started. -/
  | started
  | failed
deriving DecidableEq, Repr

/-- Where `shutdown` stands. -/
inductive Shutdown where
  /-- Not called yet. -/
  | idle
  /-- Awaiting the update to DRAINING; whether there is a worker to close. -/
  | draining (hasWorker : Bool) (call : Call)
  /-- Awaiting `pause`. -/
  | pausing
  /-- Awaiting `close`; the timer is cleared. -/
  | closing
  /-- Awaiting the update to STOPPED. -/
  | stopping (call : Call)
  /-- Past its last update. -/
  | over
deriving DecidableEq, Repr

/-- A state of one worker and its key. -/
structure State where
  now : Time
  stored : Option Record
  startup : Startup
  /-- Whether the heartbeat timer runs. -/
  timer : Bool
  /-- The heartbeats in flight. -/
  heartbeats : Nat → Option Call
  shutdown : Shutdown
  log : List Status
  epoch : Nat

/-- What happens next. -/
inductive Label where
  /-- Time passes. -/
  | wait (d : Nat)
  /-- The key expires. -/
  | expire
  /-- The SET of `registerWorker`. -/
  | register (concurrency : Nat) (ok : Bool)
  /-- `waitUntilReady` resolves or throws. -/
  | initialized (ok : Bool)
  /-- A command of the update to READY. -/
  | publish (command : Command)
  /-- The timer calls `heartbeatWorker`. -/
  | tick (i : Nat)
  /-- A command of a heartbeat. -/
  | heartbeat (i : Nat) (command : Command)
  /-- `shutdown` is called. -/
  | shutdown
  /-- A command of the update to DRAINING. -/
  | drain (command : Command)
  /-- `pause` is over. -/
  | paused
  /-- `close` is over. -/
  | closed
  /-- A command of the update to STOPPED. -/
  | stop (command : Command)
deriving DecidableEq, Repr

namespace State

/-- The state after a SET. -/
def store (s : State) (record : Record) : State :=
  { s with
    stored := some record
    log := record.status :: s.log
    epoch := if s.log.head? = some record.status then s.epoch else s.epoch + 1 }

/-- The state after a command that may be a SET. -/
def storeAll (s : State) : Option Record → State
  | none => s
  | some record => s.store record

/-- The state after a registration: the log starts again. -/
def register (s : State) (concurrency : Nat) : State :=
  { s with log := [] }.store (registered s.now concurrency)

/-- A command of a call that updates the status. -/
def update (s : State) (status : Status) (call : Call) (command : Command) :
    Option (Option Call × Option Record) :=
  call.step s.stored s.epoch (updateRecord status s.now) command

/-- `startWorker` with its call of the update, and its end: the timer starts once the call is
over, whatever it came to. -/
def publishing (s : State) : Option Call → State
  | some call => { s with startup := .publishing call }
  | none => { s with startup := .started, timer := true }

/-- `shutdown` with its call of the update to DRAINING, and what comes after it. -/
def draining (s : State) (hasWorker : Bool) : Option Call → State
  | some call => { s with shutdown := .draining hasWorker call }
  | none => { s with shutdown := if hasWorker then .pausing else .over }

/-- `shutdown` with its call of the update to STOPPED, and what comes after it. -/
def stopping (s : State) : Option Call → State
  | some call => { s with shutdown := .stopping call }
  | none => { s with shutdown := .over }

/-- One step, where it is enabled. -/
def step (s : State) : Label → Option State
  | .wait d => some { s with now := s.now + d }
  | .expire => some { s with stored := none }
  | .register concurrency ok =>
    match s.startup with
    | .registering =>
      let s := if ok then s.register concurrency else s
      some { s with startup := .initializing }
    | _ => none
  | .initialized ok =>
    match s.startup with
    | .initializing => some { s with startup := if ok then .publishing .getting else .failed }
    | _ => none
  | .publish command =>
    match s.startup with
    | .publishing call => (s.update .ready call command).map fun (call, r) ↦
      (s.publishing call).storeAll r
    | _ => none
  | .tick i =>
    if s.timer = true ∧ s.heartbeats i = none then
      some { s with heartbeats := Function.update s.heartbeats i (some .getting) }
    else none
  | .heartbeat i command =>
    (s.heartbeats i).bind fun call ↦
      (call.step s.stored s.epoch (heartbeatRecord s.now) command).map fun (call, r) ↦
        { s with heartbeats := Function.update s.heartbeats i call }.storeAll r
  | .shutdown =>
    match s.shutdown with
    | .idle => some { s with shutdown := .draining (s.startup = .started) .getting }
    | _ => none
  | .drain command =>
    match s.shutdown with
    | .draining hasWorker call => (s.update .draining call command).map fun (call, r) ↦
      (s.draining hasWorker call).storeAll r
    | _ => none
  | .paused =>
    match s.shutdown with
    | .pausing => some { s with shutdown := .closing, timer := false }
    | _ => none
  | .closed =>
    match s.shutdown with
    | .closing => some { s with shutdown := .stopping .getting }
    | _ => none
  | .stop command =>
    match s.shutdown with
    | .stopping call => (s.update .stopped call command).map fun (call, r) ↦
      (s.stopping call).storeAll r
    | _ => none

/-- The process has just been started. -/
def init : State where
  now := 0
  stored := none
  startup := .registering
  timer := false
  heartbeats := fun _ ↦ none
  shutdown := .idle
  log := []
  epoch := 0

end State

/-- A worker and its key in the registry. -/
def registry : Machine State Label := ⟨State.init, State.step⟩

end CodeArena.Workers
