import Inference.Engine
import Mathlib.Data.List.Basic

set_option autoImplicit false
set_option relaxedAutoImplicit false

/-!
# What timing has to do with passes

A pass reads its clock around every function, and with profiling it carries a collector for what it
reads. Neither has a part in what the functions do: a pass with any clock, with or without a
collector, leaves what a walk over the functions leaves that knows of no clock. What a collector
holds after a complete pass is one timing for each function, from the two readings around it.

## Main definitions

* `tick` — a clock whose successive readings are known.
* `Pass.untimed` — a pass with its metrics left out.
* `Engine.walk` — a pass without clock and collector.
* `Engine.timings` — the timings of functions, from the readings around them.

## Main results

* `Engine.executeAll_untimed`, `Engine.run_untimed` — clock and collector change nothing else.
* `Engine.executeAll_collected` — what the collector holds after a complete pass.
* `Engine.metrics_run_plain`, `Engine.metrics_run_of_failure`, `Engine.metrics_run_of_complete` —
  the metrics of a pass.
-/

namespace Inference

variable {σ : Type}

/-- A clock whose successive readings are known. -/
def tick : StateM (Nat → Nat) Nat := fun readings => (readings 0, fun i => readings (i + 1))

/-- A pass with its metrics left out. -/
def Pass.untimed (pass : Pass σ) : Pass σ :=
  { pass with metrics := none }

namespace Engine

/-! ## Passes without a clock -/

/-- A pass that has no clock and collects nothing. -/
def walk : List (BoundNode σ) → Contents → Pass σ
  | [], contents => ⟨[], contents, none, none, []⟩
  | function :: rest, contents =>
    let turn := function.execute contents
    match turn.result with
    | .error fault =>
      let failure : Failure := ⟨function.node.index, function.node.op, fault⟩
      ⟨turn.function :: rest, turn.contents, some failure, none, turn.journal⟩
    | .ok () =>
      let later := walk rest turn.contents
      { later with
        functions := turn.function :: later.functions, journal := turn.journal ++ later.journal }

/-- A walk stops at a node that fails. -/
lemma walk_cons_error {function : BoundNode σ} {contents : Contents} {fault : RoutineFault}
    (h : (function.execute contents).result = .error fault) (rest : List (BoundNode σ)) :
    walk (function :: rest) contents =
      ⟨(function.execute contents).function :: rest, (function.execute contents).contents,
        some ⟨function.node.index, function.node.op, fault⟩, none,
        (function.execute contents).journal⟩ := by
  simp only [walk, h]

/-- A walk goes on behind a node that succeeds. -/
lemma walk_cons_ok {function : BoundNode σ} {contents : Contents}
    (h : (function.execute contents).result = .ok ()) (rest : List (BoundNode σ)) :
    walk (function :: rest) contents =
      { walk rest (function.execute contents).contents with
        functions := (function.execute contents).function ::
          (walk rest (function.execute contents).contents).functions
        journal := (function.execute contents).journal ++
          (walk rest (function.execute contents).contents).journal } := by
  simp only [walk, h]

/-! ## Forgetting clock and collector -/

/-- Executing nodes stops at one that fails, with the collector as it is. -/
lemma executeAll_cons_error {function : BoundNode σ} {contents : Contents} {fault : RoutineFault}
    (h : (function.execute contents).result = .error fault) (rest : List (BoundNode σ))
    (collector : Option Metrics) (readings : Nat → Nat) :
    (executeAll tick (function :: rest) contents collector readings).1 =
      ⟨(function.execute contents).function :: rest, (function.execute contents).contents,
        some ⟨function.node.index, function.node.op, fault⟩, collector,
        (function.execute contents).journal⟩ := by
  simp only [executeAll, bind, StateT.bind, h]
  rfl

/-- Executing nodes goes on behind one that succeeds, with whatever the collector then holds. -/
lemma executeAll_cons_ok {function : BoundNode σ} {contents : Contents}
    (h : (function.execute contents).result = .ok ()) (rest : List (BoundNode σ))
    (collector : Option Metrics) (readings : Nat → Nat) :
    executeAll tick (function :: rest) contents collector readings =
      (let recorded := record tick function (readings 0) collector fun i => readings (i + 1)
       let later := executeAll tick rest (function.execute contents).contents recorded.1 recorded.2
       ({ later.1 with
          functions := (function.execute contents).function :: later.1.functions
          journal := (function.execute contents).journal ++ later.1.journal }, later.2)) := by
  simp only [executeAll, bind, StateT.bind, h]
  rfl

/-- **Executing nodes**: what the nodes do depends neither on the clock nor on the collector.

**Proof sketch.** Induction on the nodes, for all collectors and readings. The turn of a node is
the same on both sides, and what was recorded about it goes into the collector alone. -/
theorem executeAll_untimed (functions : List (BoundNode σ)) (contents : Contents)
    (collector : Option Metrics) (readings : Nat → Nat) :
    (executeAll tick functions contents collector readings).1.untimed =
      walk functions contents := by
  induction functions generalizing contents collector readings with
  | nil => rfl
  | cons function rest ih =>
    cases hresult : (function.execute contents).result with
    | error fault =>
      rw [executeAll_cons_error hresult, walk_cons_error hresult]
      rfl
    | ok _ =>
      rw [executeAll_cons_ok hresult, walk_cons_ok hresult, ← ih]
      rfl

/-- The finish of a pass only has to do with its metrics. -/
lemma run_eq (profiling : Bool) (functions : List (BoundNode σ)) (contents : Contents)
    (readings : Nat → Nat) :
    (run tick profiling functions contents readings).1 =
      (let executed := executeAll tick functions contents (if profiling then some {} else none)
        fun i => readings (i + 1)
       { executed.1 with
          metrics := if executed.1.failure.isSome then none
            else executed.1.metrics.map fun metrics =>
              metrics.finish (executed.2 0 - readings 0) }) := by
  have hfirst : tick readings = (readings 0, fun i => readings (i + 1)) := rfl
  simp only [run, bind, StateT.bind, hfirst]
  generalize executeAll tick functions contents (if profiling then some {} else none)
    (fun i => readings (i + 1)) = executed
  obtain ⟨⟨functions', contents', failure, metrics, journal⟩, left⟩ := executed
  cases failure <;> cases metrics <;> rfl

/-- **Passes**: what a pass does depends neither on the clock nor on whether it is profiled. -/
theorem run_untimed (profiling : Bool) (functions : List (BoundNode σ)) (contents : Contents)
    (readings : Nat → Nat) :
    (run tick profiling functions contents readings).1.untimed = walk functions contents := by
  rw [run_eq, ← executeAll_untimed]
  rfl

/-! ## What is collected -/

/-- The timings of functions that are executed one after another, from the readings around them. -/
def timings (functions : List (BoundNode σ)) (readings : Nat → Nat) : List Timing :=
  functions.mapIdx fun i function =>
    ⟨function.node.index, function.node.op, function.source,
      readings (2 * i + 1) - readings (2 * i)⟩

/-- The timing of the first function comes from the first two readings. -/
lemma timings_cons (function : BoundNode σ) (rest : List (BoundNode σ)) (readings : Nat → Nat) :
    timings (function :: rest) readings =
      ⟨function.node.index, function.node.op, function.source, readings 1 - readings 0⟩ ::
        timings rest fun i => readings (i + 2) := by
  rw [timings, List.mapIdx_cons]
  rfl

/-- Without a collector nothing is collected. -/
lemma executeAll_plain (functions : List (BoundNode σ)) (contents : Contents)
    (readings : Nat → Nat) :
    (executeAll tick functions contents none readings).1.metrics = none := by
  induction functions generalizing contents readings with
  | nil => rfl
  | cons function rest ih =>
    cases hresult : (function.execute contents).result with
    | error fault => rw [executeAll_cons_error hresult]
    | ok _ =>
      rw [executeAll_cons_ok hresult]
      exact ih _ _

/-- **Collecting**: after all nodes succeeded, a collector holds one timing more for each, from two
readings of the clock, and no other readings were taken.

**Proof sketch.** Induction on the nodes, for all collectors and readings: the first node takes two
readings, and the others go on with the rest of them. -/
theorem executeAll_collected {functions : List (BoundNode σ)} {contents : Contents}
    (h : (walk functions contents).failure = none) (metrics : Metrics) (readings : Nat → Nat) :
    (executeAll tick functions contents (some metrics) readings).1.metrics =
        some { metrics with functions := metrics.functions ++ timings functions readings } ∧
      (executeAll tick functions contents (some metrics) readings).2 =
        fun i => readings (2 * functions.length + i) := by
  induction functions generalizing contents metrics readings with
  | nil =>
    refine ⟨?_, ?_⟩
    · rw [timings, List.mapIdx_nil, List.append_nil]
      rfl
    · funext i
      rw [List.length_nil, Nat.mul_zero, Nat.zero_add]
      rfl
  | cons function rest ih =>
    cases hresult : (function.execute contents).result with
    | error fault =>
      rw [walk_cons_error hresult] at h
      cases h
    | ok _ =>
      rw [walk_cons_ok hresult] at h
      obtain ⟨hmetrics, hclock⟩ := ih h
        (metrics.record
          ⟨function.node.index, function.node.op, function.source, readings 1 - readings 0⟩)
        fun i => readings (i + 2)
      rw [executeAll_cons_ok hresult]
      refine ⟨hmetrics.trans ?_, hclock.trans ?_⟩
      · rw [timings_cons, Metrics.record, List.append_assoc]
        rfl
      · funext i
        rw [List.length_cons]
        congr 1
        omega

/-- Without profiling a pass has no metrics. -/
theorem metrics_run_plain (functions : List (BoundNode σ)) (contents : Contents)
    (readings : Nat → Nat) : (run tick false functions contents readings).1.metrics = none := by
  rw [run_eq]
  show (if _ then none else Option.map _ (executeAll tick functions contents none _).1.metrics) = _
  rw [executeAll_plain, Option.map_none, ite_self]

/-- A pass that failed has no metrics. -/
theorem metrics_run_of_failure {functions : List (BoundNode σ)} {contents : Contents}
    (h : (walk functions contents).failure ≠ none) (profiling : Bool) (readings : Nat → Nat) :
    (run tick profiling functions contents readings).1.metrics = none := by
  rw [run_eq]
  rw [← executeAll_untimed functions contents (if profiling then some {} else none)
    fun i => readings (i + 1)] at h
  exact if_pos (Option.isSome_iff_ne_none.mpr h)

/-- A profiled pass that was complete has one timing for each function, and the time between the
first reading and the last one. -/
theorem metrics_run_of_complete {functions : List (BoundNode σ)} {contents : Contents}
    (h : (walk functions contents).failure = none) (readings : Nat → Nat) :
    (run tick true functions contents readings).1.metrics =
      some ⟨readings (2 * functions.length + 1) - readings 0,
        timings functions fun i => readings (i + 1)⟩ := by
  obtain ⟨hmetrics, hclock⟩ := executeAll_collected h {} fun i => readings (i + 1)
  have hcomplete : (executeAll tick functions contents (some {})
      fun i => readings (i + 1)).1.failure = none := by
    rw [← h, ← executeAll_untimed functions contents (some {}) fun i => readings (i + 1)]
    rfl
  rw [run_eq]
  simp only [if_true, hcomplete, hmetrics, hclock]
  rfl

end Engine

end Inference
