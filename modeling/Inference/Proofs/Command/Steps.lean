import Inference.Command.Run
import Inference.Proofs.Session.Profiling

set_option autoImplicit false
set_option relaxedAutoImplicit false

/-!
# Steps of a run

A run takes steps on a session and on a host, up to the first fault. This file says what each kind
of step does to the two. A host can have any state; a host is obliging if its file operations
succeed, and then the files that were written can be read off its state. The clock of a host gives
readings like any other clock, so a pass of a run is a pass like any other.

## Main definitions

* `Command.exec` — the result of steps, and the session and the host after them.
* `Command.Obliging` — a host whose file operations succeed.
* `readingsFrom` — the successive readings of a clock.

## Main results

* `Command.exec_bind_ok`, `Command.exec_bind_error` — steps one after another.
* `Session.forward_eq_tick` — a pass takes the successive readings of its clock.
-/

namespace Inference

/-! ## Clocks -/

section

variable {S : Type} (now : StateM S Nat)

/-- The successive readings of a clock from a state on. -/
def readingsFrom : S → Nat → Nat
  | s, 0 => (now s).1
  | s, i + 1 => readingsFrom (now s).2 i

/-- The first reading is taken, and the others are left. -/
lemma tick_readingsFrom (s : S) :
    tick (readingsFrom now s) = ((now s).1, readingsFrom now (now s).2) :=
  rfl

variable {σ : Type}

namespace Engine

/-- Recording takes a reading of the clock if there is a collector. -/
lemma record_eq_tick (function : BoundNode σ) (start : Nat) (collector : Option Metrics) (s : S) :
    record tick function start collector (readingsFrom now s) =
      ((record now function start collector s).1,
        readingsFrom now (record now function start collector s).2) := by
  cases collector <;> rfl

/-- Executing nodes takes the successive readings of the clock. -/
lemma executeAll_eq_tick (functions : List (BoundNode σ)) (contents : Contents)
    (collector : Option Metrics) (s : S) :
    executeAll tick functions contents collector (readingsFrom now s) =
      ((executeAll now functions contents collector s).1,
        readingsFrom now (executeAll now functions contents collector s).2) := by
  induction functions generalizing contents collector s with
  | nil => rfl
  | cons function rest ih =>
    cases hresult : (function.execute contents).result with
    | error fault =>
      simp only [executeAll, bind, StateT.bind, hresult, tick_readingsFrom]
      rfl
    | ok _ =>
      simp only [executeAll, bind, StateT.bind, hresult, tick_readingsFrom, record_eq_tick, ih]
      rfl

/-- A pass over bound nodes takes the successive readings of its clock. -/
lemma run_eq_tick (profiling : Bool) (functions : List (BoundNode σ)) (contents : Contents)
    (s : S) :
    run tick profiling functions contents (readingsFrom now s) =
      ((run now profiling functions contents s).1,
        readingsFrom now (run now profiling functions contents s).2) := by
  simp only [run, bind, StateT.bind, tick_readingsFrom, executeAll_eq_tick]
  obtain ⟨start, between⟩ := now s
  dsimp only
  generalize executeAll now functions contents _ between = executed
  obtain ⟨⟨functions', contents', failure, metrics, journal⟩, left⟩ := executed
  cases failure <;> cases metrics <;> rfl

end Engine

/-- **Passes** take the successive readings of their clock. -/
theorem Session.forward_eq_tick (session : Session σ) (s : S) :
    session.forward tick (readingsFrom now s) =
      ((session.forward now s).1, readingsFrom now (session.forward now s).2) := by
  unfold Session.forward
  cases session.ready? with
  | none => rfl
  | some bound =>
    simp only [Bind.bind, StateT.bind, Engine.run_eq_tick]
    rfl

variable {α : Type} {written : S → α} {now} (hnow : ∀ s, written (now s).2 = written s)
include hnow

namespace Engine

/-- Recording does to a host what its clock does. -/
lemma record_leaves (function : BoundNode σ) (start : Nat) (collector : Option Metrics) (s : S) :
    written (record now function start collector s).2 = written s := by
  cases collector with
  | none => rfl
  | some metrics => exact hnow s

/-- Executing nodes does to a host what its clock does. -/
lemma executeAll_leaves (functions : List (BoundNode σ)) (contents : Contents)
    (collector : Option Metrics) (s : S) :
    written (executeAll now functions contents collector s).2 = written s := by
  induction functions generalizing contents collector s with
  | nil => rfl
  | cons function rest ih =>
    cases hresult : (function.execute contents).result with
    | error fault =>
      simp only [executeAll, bind, StateT.bind, hresult]
      exact hnow s
    | ok _ =>
      simp only [executeAll, bind, StateT.bind, hresult]
      exact (ih _ _ _).trans ((record_leaves hnow _ _ _ _).trans (hnow s))

/-- A pass over bound nodes does to a host what its clock does. -/
lemma run_leaves (profiling : Bool) (functions : List (BoundNode σ)) (contents : Contents)
    (s : S) : written (run now profiling functions contents s).2 = written s := by
  have hexecuted := (executeAll_leaves hnow functions contents
    (if profiling then some {} else none) (now s).2).trans (hnow s)
  simp only [run, bind, StateT.bind]
  generalize now s = first at hexecuted ⊢
  obtain ⟨start, between⟩ := first
  dsimp only at hexecuted ⊢
  generalize executeAll now functions contents _ between = executed at hexecuted ⊢
  obtain ⟨⟨functions', contents', failure, metrics, journal⟩, left⟩ := executed
  cases failure with
  | some failure => exact hexecuted
  | none =>
    cases metrics with
    | none => exact hexecuted
    | some metrics => exact (hnow left).trans hexecuted

end Engine

/-- A pass does to a host what its clock does. -/
lemma Session.forward_leaves (session : Session σ) (s : S) :
    written (session.forward now s).2 = written s := by
  unfold Session.forward
  cases session.ready? with
  | none => rfl
  | some bound => exact Engine.run_leaves hnow _ _ _ s

end

namespace Command

variable {S α β : Type}

/-! ## Steps -/

/-- The result of steps, and the session and the host after them. -/
def exec (steps : Drive (StateM S) α) (session : Session Empty) (s : S) :
    Except CommandFault α × Session Empty × S :=
  let ((result, session), s) := (steps.run.run session).run s
  (result, session, s)

section

variable {steps : Drive (StateM S) α} {next : α → Drive (StateM S) β}
  {session session' : Session Empty} {s s' : S}

/-- What steps do is what they do when they are run. -/
lemma run_eq_of_exec {result : Except CommandFault α}
    (h : exec steps session s = (result, session', s')) :
    (steps.run.run session).run s = ((result, session'), s') := by
  unfold exec at h
  cases hrun : (steps.run.run session).run s with
  | mk pair other =>
    rw [hrun] at h
    cases h
    rfl

/-- Steps after others go on where these succeeded. -/
lemma exec_bind_ok {a : α} (h : exec steps session s = (.ok a, session', s')) :
    exec (steps >>= next) session s = exec (next a) session' s' := by
  have hrun : ((steps >>= next).run.run session).run s = ((next a).run.run session').run s' := by
    simp only [ExceptT.run_bind, StateT.run_bind, run_eq_of_exec h]
    rfl
  unfold exec
  rw [hrun]

/-- Steps after others are not taken if these failed. -/
lemma exec_bind_error {fault : CommandFault}
    (h : exec steps session s = (.error fault, session', s')) :
    exec (steps >>= next) session s = (.error fault, session', s') := by
  have hrun : ((steps >>= next).run.run session).run s = ((.error fault, session'), s') := by
    simp only [ExceptT.run_bind, StateT.run_bind, run_eq_of_exec h]
    rfl
  unfold exec
  rw [hrun]

end

section

variable (session : Session Empty) (s : S)

/-- The session can be looked at, -/
lemma exec_get :
    exec (get : Drive (StateM S) (Session Empty)) session s = (.ok session, session, s) :=
  rfl

/-- and be replaced. -/
lemma exec_set (next : Session Empty) :
    exec (set next : Drive (StateM S) PUnit) session s = (.ok ⟨⟩, next, s) :=
  rfl

/-- A result that is there is the result of a step. -/
lemma exec_ofExcept (result : Except CommandFault α) :
    exec (ofExcept result : Drive (StateM S) α) session s = (result, session, s) := by
  cases result <;> rfl

/-- A question that has an answer is answered. -/
lemma exec_inquire_ok {question : Session Empty → Except SessionFault α} {a : α}
    (h : question session = .ok a) :
    exec (inquire question) session s = (.ok a, session, s) := by
  rw [inquire, exec_bind_ok (exec_get session s), h]
  exact exec_ofExcept session s (.ok a)

/-- A change that is possible is made. -/
lemma exec_change_ok {update : Session Empty → Except SessionFault (Session Empty)}
    {next : Session Empty} (h : update session = .ok next) :
    exec (change update) session s = (.ok (), next, s) := by
  rw [change, exec_bind_ok (exec_inquire_ok session s h)]
  exact exec_set session s next

/-- An action is carried out. -/
lemma exec_act (action : StateM S α) :
    exec (act action) session s = (.ok (action s).1, session, (action s).2) :=
  rfl

/-- An action that succeeds is carried out. -/
lemma exec_attempt_ok {ε : Type} {fault : ε → CommandFault} {action : StateM S (Except ε α)} {a : α}
    {s' : S} (h : action s = (.ok a, s')) :
    exec (attempt fault action) session s = (.ok a, session, s') := by
  rw [attempt, exec_bind_ok (exec_act session s action), h]
  exact exec_ofExcept session s' (.ok a)

/-- Loading gives what the session gives. -/
lemma exec_load (path : String) (descriptor : Bytes) :
    exec (load path descriptor) session s =
      ((session.load 0 descriptor).result.mapError (.notLoaded path),
        (session.load 0 descriptor).session, s) := by
  rw [load, exec_bind_ok (exec_get session s)]
  exact (exec_bind_ok (exec_set session s _)).trans (exec_ofExcept _ s _)

end

/-! ## Obliging hosts -/

/-- A host whose file operations succeed. As long as nothing was written, the files have the given
contents; `written` reads off its state which files were written, with which contents, in order. No
other action changes that. -/
structure Obliging (host : Host (StateM S)) (files : String → Bytes)
    (written : S → List (String × Bytes)) : Prop where
  read : ∀ path s, written s = [] →
    ∃ s', host.read path s = (.ok (files path), s') ∧ written s' = []
  map : ∀ path s, written s = [] →
    ∃ s', host.map path s = (.ok (files path), s') ∧ written s' = []
  makeDirectories : ∀ path s,
    ∃ s', host.makeDirectories path s = (.ok (), s') ∧ written s' = written s
  write : ∀ path bytes s,
    ∃ s', host.write path bytes s = (.ok (), s') ∧ written s' = written s ++ [(path, bytes)]
  now : ∀ s, written (host.now s).2 = written s
  print : ∀ text s, written (host.print text s).2 = written s

end Command

end Inference
