import EventSim.Setup
import EventSim.Stamp

/-! # Commands that run nothing

All commands but four are carried out in one step: they start no action. `World.perform` carries
them out. The four that do start actions, `run`, `destroy`, `teardown` and `scenario`, are driven
step by step by the machine, and are left alone here.
-/

namespace EventSim.World

/-- A handle put together from another one and other parts. -/
def forged (base : Handle) (time : Option Time) (uid : Option Nat) (context : Option Context)
    (teardown : Bool) : Handle :=
  let time := time.getD base.time
  let uid := uid.getD base.uid
  if teardown then .ofTeardown base.owner time uid
  else .ofKey base.owner ⟨time, uid, context.getD base.context⟩

/-- The world in which a kernel was handed to the facade, by name or new. A new kernel that is
refused goes. -/
def installFrom (w : World) : KernelSource → Except Panic Reply × World
  | .held name =>
    match w.lookup name with
    | .error p => (.error p, w)
    | .ok id =>
      match w.install id with
      | .error p => (.error p, w)
      | .ok (.error e) => (.ok (.refused e), w)
      | .ok (.ok w) => (.ok .done, w)
  | .fresh spec =>
    let (id, w) := w.make spec
    match w.install id with
    | .error p => (.error p, w)
    | .ok (.error e) => (.ok (.refused e), w)
    | .ok (.ok w) => (.ok .done, w)

/-- The world in which an action has noted something down. -/
def note (w : World) (s : Sighting) : Except Panic Reply × World :=
  let noted (o : Observation) (w : World) : Except Panic Reply × World :=
    (.ok .done, { w with observed := o :: w.observed })
  match s with
  | .number n => noted (.number n) w
  | .label s => noted (.label s) w
  | .now =>
    match w.nowOf .facade with
    | .error p => (.error p, w)
    | .ok (t, w) => noted (.number t.ticks) w
  | .context =>
    match w.contextOf .facade with
    | .error p => (.error p, w)
    | .ok (c, w) => noted (.number c.toNat) w
  | .nowAnd i =>
    match w.nowOf .facade with
    | .error p => (.error p, w)
    | .ok (t, w) => noted (.timed t i) w

/-- A command that starts no action. -/
def perform (w : World) (c : Command) : Except Panic Reply × World :=
  match c with
  | .idle => (.ok .done, w)
  | .schedule t timing name a => w.schedule t timing name a
  | .scheduleEach t delays name a =>
    match w.scheduleEach t name a 0 delays with
    | (.error p, w) => (.error p, w)
    | (.ok replies, w) => (.ok (.many replies), w)
  | .chain _ _ _ 0 _ => (.ok .done, w)
  | .chain t tag delay (left + 1) name =>
    w.schedule t (.after delay) name (link t tag delay left name)
  | .stopAfter t delay name => w.stopAfter t delay name
  | .cancel t name => w.cancel t (w.handle name)
  | .remove t name => w.remove t (w.handle name)
  | .isExpired t name => w.isExpired t (w.handle name)
  | .delayLeft t name => w.delayLeft t (w.handle name)
  | .stop t =>
    w.onReached t fun id e w => (.ok .done, w.setEngine id (e.onKernel Kernel.stop))
  | .attach t b => w.onReached t fun id _ w => (.ok .done, w.attach id b)
  | .query t q => w.ask t q
  | .inspect name => (.ok (.shown (w.handle name)), w)
  | .same a b => (.ok (.flag (w.handle a == w.handle b)), w)
  | .forge source time uid context teardown name =>
    let h := forged (w.handle source) time uid context teardown
    (.ok (.handle h), w.save name h)
  | .build name spec =>
    let (n, w) := w.build name spec
    (.ok (.count n), w)
  | .panic message => (.error (.raised message), w)
  | .isPopulated => (.ok (.flag w.slot.isSome), w)
  | .attachNamed name =>
    match w.registry.scheduler name with
    | .error e => (.ok (.refused e), w)
    | .ok b => w.onReached .facade fun id _ w => (.ok .done, w.attach id b)
  | .install source => w.installFrom source
  | .config call => w.configure call
  | .registry call => w.enroll call
  | .printing call => w.print call
  | .trace (.start name) => (.ok .done, { w with trace := .start name })
  | .trace .clear => (.ok .done, { w with trace := w.trace.clear })
  | .trace .report => (.ok (.report w.trace.report), w)
  | .observe s => w.note s
  | .observations => (.ok (.observations w.observed.reverse), w)
  | .capture =>
    w.onReached .facade fun _ e w => (.ok (.captured e.executed e.now), w)
  | .isStored name =>
    let h := w.handle name
    let stored := h.owner.bind fun id => (w.engine? id).map fun e => e.isStored h
    (.ok (.flag (stored.getD false)), w)
  | .backendName name =>
    match w.lookup name with
    | .error p => (.error p, w)
    | .ok id => (.ok (.name (((w.engine? id).bind Engine.backendName).getD "")), w)
  | .run _ | .destroy _ | .teardown | .scenario _ => (.ok .done, w)

end EventSim.World
