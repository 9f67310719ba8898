import HalEnforcement.Interleaving
import HalEnforcement.Library.Observation
import HalEnforcement.Operations

/-!
# Calls in flight

A creation or an `audit` call that waits shares no state with the calls that overtake it but the
locks, and it takes nothing out of them. `calls_do_not_interfere` says that its events get the
replies they would get with nobody else around, and `calls_are_wait_free` that it finishes with its
own next events, at most two, whatever the others do in between.
-/

namespace HalEnforcement

/-- The task of an event, if it is an event of a call that waits. -/
def Event.task : Event → Option Nat
  | .createCall task _ _ => some task
  | .createResume task _ _ => some task
  | .createInsert task => some task
  | .auditCall task _ _ _ _ _ _ _ => some task
  | .auditPush task => some task
  | _ => none

/-- The event belongs to the task. -/
def Event.isOf (task : Nat) (event : Event) : Bool := decide (event.task = some task)

theorem task_eq_of_own {event : Event} {task other : Nat} (hown : event.isOf task = true)
    (htask : event.task = some other) : other = task :=
  Option.some.inj (htask.symm.trans (of_decide_eq_true hown))

theorem task_ne_of_not_own {event : Event} {task other : Nat} (hother : event.isOf task = false)
    (htask : event.task = some other) : other ≠ task := by
  intro heq
  exact of_decide_eq_false hother (htask.trans (congrArg some heq))

/-- The events a pending call still needs, with the readings it will take. -/
def Task.steps (pending : Task) (task : Nat) (freshId : Uuid) (now : Int) : List Event :=
  match pending with
  | .resolve _ _ => [.createResume task freshId now, .createInsert task]
  | .insert _ => [.createInsert task]
  | .push _ => [.auditPush task]

section Tasks

variable [Wasmparser]

/-- The replies to these events. A call that is refused has nothing left to insert. -/
def EnforcementService.replies (service : EnforcementService) (pending : Task) (freshId : Uuid)
    (now : Int) : List Reply :=
  match pending with
  | .resolve entityId wasmBytes =>
      match service.authorize entityId wasmBytes with
      | .error error => [.refused error, .idle]
      | .ok (caps, source) =>
          [.drew freshId, .created (newSession freshId now entityId caps source)]
  | .insert session => [.created session]
  | .push _ => [.audited]

variable {service : EnforcementService} {left right : World} {task : Nat}

omit [Wasmparser] in
theorem start_same (h : left.tasks.lookup task = right.tasks.lookup task) (pending : Task) :
    (left.start task pending).1 = (right.start task pending).1 ∧
      (left.start task pending).2.tasks.lookup task =
        (right.start task pending).2.tasks.lookup task := by
  unfold World.start
  rw [h]
  cases hright : right.tasks.lookup task with
  | none => simp [World.setTask]
  | some _ => simp [h, hright]

omit [Wasmparser] in
theorem start_other {other : Nat} (hother : other ≠ task) (world : World) (pending : Task) :
    (world.start other pending).2.tasks.lookup task = world.tasks.lookup task := by
  unfold World.start
  cases world.tasks.lookup other with
  | none => exact Finmap.lookup_insert_of_ne _ hother.symm
  | some _ => rfl

/-- An event of the task sees the task alone. -/
theorem step_own (h : left.tasks.lookup task = right.tasks.lookup task) {event : Event}
    (hown : event.isOf task = true) :
    (service.step left event).1 = (service.step right event).1 ∧
      (service.step left event).2.tasks.lookup task =
        (service.step right event).2.tasks.lookup task := by
  cases event with
  | createCall other entityId wasmBytes =>
      obtain rfl := task_eq_of_own hown rfl
      exact start_same h _
  | createResume other freshId now =>
      obtain rfl := task_eq_of_own hown rfl
      simp only [EnforcementService.step, h]
      split
      · split
        · simp [World.endTask]
        · simp [World.setTask]
      · exact ⟨rfl, h⟩
  | createInsert other =>
      obtain rfl := task_eq_of_own hown rfl
      simp only [EnforcementService.step, h]
      split
      · simp [World.endTask]
      · exact ⟨rfl, h⟩
  | auditCall other entityId sessionId interface operation success error now =>
      obtain rfl := task_eq_of_own hown rfl
      exact start_same h _
  | auditPush other =>
      obtain rfl := task_eq_of_own hown rfl
      simp only [EnforcementService.step, h]
      split
      · simp [World.endTask]
      · exact ⟨rfl, h⟩
  | getSession | checkRateLimit | getAuditLog | activeSessionsCount => cases hown

/-- Any other event leaves the task where it is. -/
theorem step_not_own (world : World) {event : Event} (hother : event.isOf task = false) :
    (service.step world event).2.tasks.lookup task = world.tasks.lookup task := by
  cases event with
  | createCall other entityId wasmBytes =>
      exact start_other (task_ne_of_not_own hother rfl) world _
  | createResume other freshId now =>
      have hne := task_ne_of_not_own hother rfl
      simp only [EnforcementService.step]
      split
      · split
        · exact Finmap.lookup_erase_ne hne.symm
        · exact Finmap.lookup_insert_of_ne _ hne.symm
      · rfl
  | createInsert other =>
      have hne := task_ne_of_not_own hother rfl
      simp only [EnforcementService.step]
      split
      · exact Finmap.lookup_erase_ne hne.symm
      · rfl
  | auditCall other entityId sessionId interface operation success error now =>
      exact start_other (task_ne_of_not_own hother rfl) world _
  | auditPush other =>
      have hne := task_ne_of_not_own hother rfl
      simp only [EnforcementService.step]
      split
      · exact Finmap.lookup_erase_ne hne.symm
      · rfl
  | getSession | checkRateLimit | getAuditLog | activeSessionsCount => rfl

/-- The replies to the events of a task, among any others, are those of the task alone. -/
theorem trace_of_task (world : World) (events : List Event) (task : Nat) :
    (Mealy.trace service.step world events).filter (fun entry => entry.1.isOf task) =
      Mealy.trace service.step world (events.filter (Event.isOf task)) :=
  Observation.purge_run
    (R := fun left right : World => left.tasks.lookup task = right.tasks.lookup task) rfl
    (fun _ _ _ _ h hown => step_own h hown)
    fun left _ _ _ h hother => (step_not_own left hother).trans h

theorem final_of_task (world : World) (events : List Event) (task : Nat) :
    (Mealy.final service.step world events).tasks.lookup task =
      (Mealy.final service.step world (events.filter (Event.isOf task))).tasks.lookup task :=
  Observation.purge_final
    (R := fun left right : World => left.tasks.lookup task = right.tasks.lookup task) rfl
    (fun _ _ _ _ h hown => (step_own h hown).2)
    fun left _ _ _ h hother => (step_not_own left hother).trans h

/-- The remaining events of a call, one right after the other. -/
theorem steps_alone (service : EnforcementService) {world : World} {pending : Task}
    (hpending : world.tasks.lookup task = some pending) (freshId : Uuid) (now : Int) :
    (Mealy.final service.step world (pending.steps task freshId now)).tasks.lookup task = none ∧
      (Mealy.trace service.step world (pending.steps task freshId now)).map Prod.snd =
        service.replies pending freshId now := by
  cases pending with
  | resolve entityId wasmBytes =>
      simp only [Task.steps, EnforcementService.replies, Mealy.final_cons, Mealy.final_nil,
        Mealy.trace_cons, Mealy.trace_nil, EnforcementService.step, hpending]
      cases service.authorize entityId wasmBytes with
      | error error => simp [World.endTask]
      | ok resolved => simp [World.setTask, World.endTask]
  | insert session =>
      simp [Task.steps, EnforcementService.replies, EnforcementService.step, hpending,
        World.endTask]
  | push event =>
      simp [Task.steps, EnforcementService.replies, EnforcementService.step, hpending,
        World.endTask]

variable (service)

/-- In an interleaved run the events of a call are answered as they would be without the events of
all other calls: no call is delayed, refused or answered otherwise because of another one. -/
theorem calls_do_not_interfere (events : List Event) (task : Nat) :
    (Mealy.trace service.step .empty events).filter (fun entry => entry.1.isOf task) =
        Mealy.trace service.step .empty (events.filter (Event.isOf task)) ∧
      (Mealy.final service.step .empty events).tasks.lookup task =
        (Mealy.final service.step .empty (events.filter (Event.isOf task))).tasks.lookup task :=
  ⟨trace_of_task .empty events task, final_of_task .empty events task⟩

/-- A call in flight at any point of an interleaved run finishes with its own next events, whatever
happens in between, and these are answered by what it waits for alone. -/
theorem calls_are_wait_free (events rest : List Event) {task : Nat} {pending : Task}
    (hpending : (Mealy.final service.step .empty events).tasks.lookup task = some pending)
    {freshId : Uuid} {now : Int}
    (hown : rest.filter (Event.isOf task) = pending.steps task freshId now) :
    (Mealy.final service.step .empty (events ++ rest)).tasks.lookup task = none ∧
      ((Mealy.trace service.step (Mealy.final service.step .empty events) rest).filter
        fun entry => entry.1.isOf task).map Prod.snd = service.replies pending freshId now := by
  obtain ⟨hdone, hreplies⟩ := steps_alone service hpending freshId now
  rw [← hown] at hdone hreplies
  rw [Mealy.final_append, final_of_task, trace_of_task]
  exact ⟨hdone, hreplies⟩

end Tasks

/-- The creation is overtaken by a lookup and by the creation of another task. -/
theorem overtaken_creation_finishes :
    (Mealy.final (@EnforcementService.step sampleParser mixedService) .empty
        ([.createCall 0 "sensor" none] ++ [.createResume 0 ⟨7⟩ 5, .createCall 1 "sensor" none,
          .getSession ⟨7⟩ 6, .createInsert 0])).tasks.lookup 0 = none ∧
      ((Mealy.trace (@EnforcementService.step sampleParser mixedService)
        (Mealy.final (@EnforcementService.step sampleParser mixedService) .empty
          [.createCall 0 "sensor" none])
        [.createResume 0 ⟨7⟩ 5, .createCall 1 "sensor" none, .getSession ⟨7⟩ 6,
          .createInsert 0]).filter fun entry => entry.1.isOf 0).map Prod.snd =
        [.drew ⟨7⟩, .created
          (newSession ⟨7⟩ 5 "sensor" { crypto := true, random := true } .manual)] :=
  @calls_are_wait_free sampleParser mixedService [.createCall 0 "sensor" none]
    [.createResume 0 ⟨7⟩ 5, .createCall 1 "sensor" none, .getSession ⟨7⟩ 6, .createInsert 0] 0
    (.resolve "sensor" none) rfl ⟨7⟩ 5 rfl

end HalEnforcement
