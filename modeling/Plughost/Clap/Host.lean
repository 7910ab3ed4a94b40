import Plughost.Lib.BoundedQueue
import Plughost.Lib.Runs
import Plughost.Vst3.PendingChanges

/-! `ClapPlugin::Impl`: the pending changes, the timer registry and the flush flag, under the
calls of the host and the callbacks of the plugin instances that come and go. -/
namespace Plughost.Clap
open Plughost.Runs Plughost.BoundedQueue

/-- A plugin instance, by the number of its creation. -/
abbrev Inst := Nat

abbrev TimerId := BitVec 32

/-- `TimerRecord`, with the instance that registered it; times in nanoseconds. -/
structure Timer where
  id : TimerId
  periodMs : BitVec 32
  lastFire : Nat
  owner : Inst
  deriving DecidableEq, Repr

/-- `PendingClapChange`, with the instance that was active at its `SetParam`. -/
structure Change where
  paramId : BitVec 32
  value : BitVec 64
  owner : Inst
  deriving DecidableEq, Repr

/-- The active instance, and whether it has `params->flush` and `timer->on_timer`. -/
structure ActiveInst where
  inst : Inst
  flush : Bool
  onTimer : Bool
  deriving DecidableEq, Repr

/-- The fire loop of a tick: the ids still to be fired, each with who registered it. `due` is what
the clock made due, `fired` and `gone` what has been fired and unregistered since. -/
structure Firing where
  inst : Inst
  rest : List (TimerId × Inst)
  due : List TimerId
  fired : List TimerId
  gone : List TimerId
  deriving DecidableEq, Repr

/-- The call in progress, when the plugin can call back in the middle of it. -/
inductive Phase where
  | idle
  /-- `Load`, from `create_plugin` on. -/
  | loading (i : Inst)
  /-- The rest of `Load` or `Unload`: the instance from before, if any, is torn down. -/
  | closing (prior : Option Inst)
  /-- `OnEditorIdleTick`, in `on_main_thread`. -/
  | mainThread (a : ActiveInst)
  /-- Past the flush. -/
  | flushed (a : ActiveInst)
  | firing (f : Firing)
  deriving DecidableEq, Repr

/-- What an instance is called with, and what `HostTimerUnregister` has granted. -/
inductive Event where
  | deliver (i : Inst) (c : Change)
  | onTimer (i : Inst) (id : TimerId) (owner : Inst)
  /-- `asked` is whether the instance has requested a flush since the last one. -/
  | flush (i : Inst) (asked : Bool)
  | unregistered (id : TimerId)
  deriving DecidableEq, Repr

structure Host where
  pendingChanges : List Change
  timers : List Timer
  nextTimerId : TimerId
  flushRequested : Bool
  active : Option ActiveInst
  phase : Phase
  clock : Nat
  nextInst : Inst
  /-- The instances that have requested a flush since the last one. -/
  askedBy : List Inst
  /-- The ids handed out so far. -/
  issued : List TimerId
  log : List Event

inductive Act where
  | advance (ns : Nat)
  | load
  | loadFails
  /-- The rest of a `Load` that succeeds, up to the swap. -/
  | loadSucceeds (flush onTimer : Bool)
  | tornDown
  | unload
  | setParam (paramId : BitVec 32) (normalized : BitVec 64)
  | timerRegister (i : Inst) (periodMs : BitVec 32)
  | timerUnregister (i : Inst) (id : TimerId)
  | requestFlush (i : Inst)
  /-- A `Process` call that gets as far as the plugin, if there is one. -/
  | process
  | tick
  | flush
  | snapshot
  | fire
  | tickEnd
  deriving DecidableEq, Repr

namespace Host

def initial : Host :=
  { pendingChanges := [], timers := [], nextTimerId := 1, flushRequested := false, active := none, phase := .idle,
    clock := 0, nextInst := 0, askedBy := [], issued := [], log := [] }

/-- The instances whose code may be running. -/
def live (s : Host) (i : Inst) : Bool :=
  s.active.any (fun a => a.inst == i) || s.phase == .loading i || s.phase == .closing (some i)

/-- Milliseconds since the last fire. -/
def elapsed (s : Host) (t : Timer) : Nat := (s.clock - t.lastFire) / 1000000

/-- The test of the snapshot, on the count cut to 32 bits. -/
def isDue (s : Host) (t : Timer) : Bool := t.periodMs ≤ BitVec.ofNat 32 (s.elapsed t)

/-- `HostTimerRegister`. -/
def register (s : Host) (i : Inst) (periodMs : BitVec 32) : Host :=
  let periodMs := if periodMs < 16 then 16 else periodMs
  { s with timers := s.timers ++ [⟨s.nextTimerId, periodMs, s.clock, i⟩], nextTimerId := s.nextTimerId + 1,
           issued := s.nextTimerId :: s.issued }

/-- The unregistered id is noted where a tick is in its fire loop. -/
def noteGone (id : TimerId) : Phase → Phase
  | .firing f => .firing { f with gone := id :: f.gone }
  | p => p

/-- `HostTimerUnregister`: the first record with that id goes, if there is one. -/
def unregister (s : Host) (id : TimerId) : Host :=
  if s.timers.any (fun t => t.id == id) then
    { s with timers := s.timers.eraseP fun t => t.id == id, phase := noteGone id s.phase,
             log := s.log ++ [.unregistered id] }
  else s

/-- The snapshot of `OnEditorIdleTick`. -/
def takeDue (s : Host) (a : ActiveInst) : Host :=
  { s with
    timers := s.timers.map fun t => if s.isDue t then { t with lastFire := s.clock } else t
    phase := .firing { inst := a.inst, rest := (s.timers.filter s.isDue).map fun t => (t.id, t.owner),
                       due := (s.timers.filter fun t => t.periodMs.toNat ≤ s.elapsed t).map Timer.id,
                       fired := [], gone := [] } }

def step (s : Host) : Act → Option Host
  | .advance ns => some { s with clock := s.clock + ns }
  | .load => match s.phase with
    | .idle => some { s with phase := .loading s.nextInst, nextInst := s.nextInst + 1 }
    | _ => none
  | .loadFails => match s.phase with
    | .loading _ => some { s with phase := .idle }
    | _ => none
  | .loadSucceeds flush onTimer => match s.phase with
    | .loading i => some { s with active := some ⟨i, flush, onTimer⟩, phase := .closing (s.active.map ActiveInst.inst) }
    | _ => none
  | .tornDown => match s.phase with
    | .closing _ => some { s with phase := .idle }
    | _ => none
  | .unload => match s.phase with
    | .idle => some { s with timers := [], active := none, phase := .closing (s.active.map ActiveInst.inst) }
    | _ => none
  | .setParam paramId normalized => match s.phase with
    | .loading _ | .closing _ => none
    | _ => match s.active with
      | none => some s
      | some a => some { s with
          pendingChanges := push Vst3.kPendingCap s.pendingChanges ⟨paramId, normalized, a.inst⟩ }
  | .timerRegister i periodMs => if s.live i then some (s.register i periodMs) else none
  | .timerUnregister i id => if s.live i then some (s.unregister id) else none
  | .requestFlush i =>
    if s.live i then some { s with flushRequested := true, askedBy := i :: s.askedBy } else none
  | .process => match s.active with
    | none => some s
    | some a => some { s with
        pendingChanges := [], log := s.log ++ s.pendingChanges.map (.deliver a.inst) }
  | .tick => match s.phase with
    | .idle => match s.active with
      | none => some s
      | some a => some { s with phase := .mainThread a }
    | _ => none
  | .flush => match s.phase with
    | .mainThread a =>
      if a.flush && s.flushRequested then
        some { s with flushRequested := false, askedBy := [], phase := .flushed a,
                      log := s.log ++ [.flush a.inst (s.askedBy.contains a.inst)] }
      else some { s with phase := .flushed a }
    | _ => none
  | .snapshot => match s.phase with
    | .flushed a => if a.onTimer then some (s.takeDue a) else some { s with phase := .idle }
    | _ => none
  | .fire => match s.phase with
    | .firing f => match f.rest with
      | [] => none
      | (id, owner) :: rest => some { s with
          phase := .firing { f with rest := rest, fired := f.fired ++ [id] }
          log := s.log ++ [.onTimer f.inst id owner] }
    | _ => none
  | .tickEnd => match s.phase with
    | .firing f => if f.rest.isEmpty then some { s with phase := .idle } else none
    | _ => none

end Host
end Plughost.Clap
