import Inference.Proofs.Command.Steps
import Inference.Proofs.Session.Alike
import Inference.Toml.Standard

set_option autoImplicit false
set_option relaxedAutoImplicit false

/-!
# Runs

A run loads a descriptor, fills inputs from files, makes passes and delivers the outputs. On a host
whose file operations succeed it succeeds exactly if all of this is possible with a fresh session:
the settings can be read, the session takes the descriptor, there are no more files than inputs and
each has the size of its input, and every pass succeeds. Outputs are only written when nothing can
fail any more, so a run that fails has written none, and one that succeeds has written every output
once, with the contents that the fresh session holds after the same actions. Printing timings as
JSON has no part in that.

## Main definitions

* `Command.script` — what a run does with a session.
* `Command.Feasible` — when all of it is possible.
* `Command.SucceedsIff` — steps that succeed exactly under a condition.

## Main results

* `Command.succeedsIff_fillInputs`, `Command.succeedsIff_passes` — inputs and passes.
* `Command.exec_deliver` — the outputs.
* `Command.run_feasible` — when a run succeeds, and what it writes.
-/

namespace Inference

namespace Command

variable {S : Type}

/-! ## Steps that succeed under a condition -/

/-- Steps that succeed exactly under a condition and then reach a goal. If they fail, nothing was
written. -/
inductive SucceedsIff (written : S → List (String × Bytes)) (steps : Drive (StateM S) Unit)
    (session : Session Empty) (s : S) (condition : Prop) (goal : Session Empty → S → Prop) : Prop
  | succeeded {session' : Session Empty} {s' : S} (h : condition)
      (hexec : exec steps session s = (.ok (), session', s')) (hgoal : goal session' s')
  | failed {fault : CommandFault} {session' : Session Empty} {s' : S} (h : ¬condition)
      (hexec : exec steps session s = (.error fault, session', s')) (hs : written s' = [])

namespace SucceedsIff

variable {written : S → List (String × Bytes)} {steps : Drive (StateM S) Unit}
  {session : Session Empty} {s : S} {condition : Prop} {goal : Session Empty → S → Prop}

/-- Conditions can be stated in another way. -/
lemma congr {condition' : Prop} (h : SucceedsIff written steps session s condition goal)
    (hiff : condition ↔ condition') : SucceedsIff written steps session s condition' goal := by
  cases h with
  | succeeded h hexec hgoal => exact .succeeded (hiff.mp h) hexec hgoal
  | failed h hexec hs => exact .failed (hiff.not.mp h) hexec hs

/-- Steps after others succeed if those do. -/
lemma bind {next : Unit → Drive (StateM S) Unit} {later : Prop} {goal' : Session Empty → S → Prop}
    (h : SucceedsIff written steps session s condition goal)
    (hnext : ∀ session' s', goal session' s' →
      SucceedsIff written (next ()) session' s' later goal') :
    SucceedsIff written (steps >>= next) session s (condition ∧ later) goal' := by
  cases h with
  | succeeded h hexec hgoal =>
    cases hnext _ _ hgoal with
    | succeeded h' hexec' hgoal' =>
      exact .succeeded ⟨h, h'⟩ ((exec_bind_ok hexec).trans hexec') hgoal'
    | failed h' hexec' hs =>
      exact .failed (fun hboth => h' hboth.2) ((exec_bind_ok hexec).trans hexec') hs
  | failed h hexec hs => exact .failed (fun hboth => h hboth.1) (exec_bind_error hexec) hs

/-- Steps may come before others that succeed anyway. -/
lemma before {next : Unit → Drive (StateM S) Unit} {goal' : Session Empty → S → Prop}
    (h : SucceedsIff written steps session s condition goal)
    (hnext : ∀ session' s', goal session' s' → ∃ session'' s'',
      exec (next ()) session' s' = (.ok (), session'', s'') ∧ goal' session'' s'') :
    SucceedsIff written (steps >>= next) session s condition goal' := by
  cases h with
  | succeeded h hexec hgoal =>
    obtain ⟨_, _, hexec', hgoal'⟩ := hnext _ _ hgoal
    exact .succeeded h ((exec_bind_ok hexec).trans hexec') hgoal'
  | failed h hexec hs => exact .failed h (exec_bind_error hexec) hs

/-- Steps may come after a step that succeeds anyway. -/
lemma after {α : Type} {first : Drive (StateM S) α} {next : α → Drive (StateM S) Unit} {a : α}
    {session' : Session Empty} {s' : S} (hexec : exec first session s = (.ok a, session', s'))
    (h : SucceedsIff written (next a) session' s' condition goal) :
    SucceedsIff written (first >>= next) session s condition goal := by
  cases h with
  | succeeded h hnext hgoal => exact .succeeded h ((exec_bind_ok hexec).trans hnext) hgoal
  | failed h hnext hs => exact .failed h ((exec_bind_ok hexec).trans hnext) hs

end SucceedsIff

/-! ## Inputs -/

/-- Whether the files have the sizes of the inputs from an index on. -/
def Fits (session : Session Empty) (index : Nat) (inputs : List Bytes) : Prop :=
  ∀ k bytes, inputs[k]? = some bytes → session.byteSize .input (index + k) = .ok bytes.length

/-- The first file has the size of its input, and the others have theirs. -/
lemma fits_cons_iff {session : Session Empty} {index : Nat} {bytes : Bytes} {inputs : List Bytes} :
    Fits session index (bytes :: inputs) ↔
      session.byteSize .input index = .ok bytes.length ∧ Fits session (index + 1) inputs := by
  constructor
  · intro h
    refine ⟨h 0 bytes rfl, fun k other hother => ?_⟩
    rw [Nat.add_right_comm, Nat.add_assoc]
    exact h (k + 1) other hother
  · rintro ⟨hfirst, hrest⟩ k other hother
    cases k with
    | zero => exact Option.some.inj hother ▸ hfirst
    | succ k =>
      rw [← Nat.add_assoc, Nat.add_right_comm]
      exact hrest k other hother

/-- Contents are laid over the inputs from an index on. -/
def fillActions (index : Nat) (inputs : List Bytes) : List (Action Empty) :=
  inputs.mapIdx fun k bytes => .write .input (index + k) 0 bytes

/-- The first input is filled first. -/
lemma fillActions_cons (index : Nat) (bytes : Bytes) (inputs : List Bytes) :
    fillActions index (bytes :: inputs) =
      .write .input index 0 bytes :: fillActions (index + 1) inputs := by
  simp only [fillActions, List.mapIdx_cons, Nat.add_zero, Nat.add_assoc, Nat.add_comm 1]

section

variable {host : Host (StateM S)} {files : String → Bytes}
  {written : S → List (String × Bytes)} (hhost : Obliging host files written) {network : Network}
include hhost

/-- **Inputs** are filled exactly if every file has the size of its input.

**Proof sketch.** Induction on the files. An input that is there can be written to, and no writing
changes the size of another. -/
theorem succeedsIff_fillInputs {session other : Session Empty} (halike : session.Alike other)
    (hexposing : other.Exposing network) {s : S} (hs : written s = []) (index : Nat)
    (paths : List String) (hfew : index + paths.length ≤ (network.listed .input).length) :
    SucceedsIff written (fillInputs host index paths) session s
      (Fits other index (paths.map files))
      fun session' s' => session'.Alike (other.after (fillActions index (paths.map files))) ∧
        (other.after (fillActions index (paths.map files))).Exposing network ∧
        written s' = [] := by
  induction paths generalizing session other s index with
  | nil => exact .succeeded (fun k bytes h => by cases h) rfl ⟨halike, hexposing, hs⟩
  | cons path paths ih =>
    rw [List.length_cons] at hfew
    have hlt : index < (network.listed .input).length := by omega
    obtain ⟨v, -, -, hshows⟩ :=
      hexposing.exposes.shows .input index _ (List.getElem?_eq_getElem hlt)
    obtain ⟨s', hread, hs'⟩ := hhost.read path s hs
    have hsize := (halike.byteSize_eq .input index).trans hshows.byteSize_eq
    rw [List.map_cons, fillInputs]
    refine .after (exec_attempt_ok session s hread) (.after (exec_inquire_ok session s' hsize) ?_)
    dsimp only
    split
    · next hne =>
      refine .failed (fun hfits => hne ?_) (exec_bind_error rfl) hs'
      exact Except.ok.inj ((fits_cons_iff.mp hfits).1.symm.trans hshows.byteSize_eq)
    · next heq =>
      rw [not_not] at heq
      obtain ⟨next, hwrite, hnext⟩ := halike.exists_write (hshows.writable 0 (files path))
      have hnot : (Action.write .input index 0 (files path) : Action Empty) ≠ .free := by simp
      have hrest := ih hnext (hexposing.perform hnot) hs' (index + 1) (by omega)
      rw [fillActions_cons]
      refine .after (exec_change_ok session s' hwrite) (hrest.congr ?_)
      -- `hrest` asks for the sizes of the other inputs after the first one was written to.
      rw [fits_cons_iff, hshows.byteSize_eq, heq, eq_self_iff_true, true_and]
      refine forall_congr' fun k => forall₂_congr fun bytes _ => ?_
      rw [hexposing.byteSize_perform hnot]

end

/-! ## Passes -/

/-- A pass. It does not matter what its clock shows. -/
def pass : Action Empty :=
  .forward fun _ => 0

/-- Whether a session makes passes one after another without a failure. -/
def Passes (session : Session Empty) (count : Nat) : Prop :=
  ∀ n < count, ((session.after (List.replicate n pass)).perform pass).answer = .done (.ok ())

/-- The first pass succeeds, and the others do after it. -/
lemma passes_succ_iff {session : Session Empty} {count : Nat} :
    Passes session (count + 1) ↔
      (session.perform pass).answer = .done (.ok ()) ∧
        Passes (session.perform pass).session count := by
  constructor
  · intro h
    exact ⟨h 0 (Nat.zero_lt_succ _), fun n hn => h (n + 1) (Nat.succ_lt_succ hn)⟩
  · rintro ⟨hfirst, hrest⟩ n hn
    cases n with
    | zero => exact hfirst
    | succ n => exact hrest n (Nat.lt_of_succ_lt_succ hn)

section

variable {host : Host (StateM S)} {files : String → Bytes}
  {written : S → List (String × Bytes)} (hhost : Obliging host files written) {network : Network}
include hhost

/-- **Passes** are made exactly if all of them succeed, whatever the clock of the host shows.

**Proof sketch.** Induction on their number. A pass takes the readings of the clock from the host
(`Session.forward_eq_tick`), and nothing but timings depends on them. -/
theorem succeedsIff_passes {session other : Session Empty} (halike : session.Alike other)
    (hexposing : other.Exposing network) {s : S} (hs : written s = []) (count : Nat) :
    SucceedsIff written (passes host count) session s (Passes other count)
      fun session' s' => session'.Alike (other.after (List.replicate count pass)) ∧
        (other.after (List.replicate count pass)).Exposing network ∧ written s' = [] := by
  induction count generalizing session other s with
  | zero => exact .succeeded (fun n hn => by cases hn) rfl ⟨halike, hexposing, hs⟩
  | succ count ih =>
    have hreply : session.perform (.forward (readingsFrom host.now s)) =
        Session.replied (session.forward host.now s).1 := by
      rw [Session.perform, Session.forward_eq_tick]
    have huntimed : (Action.forward (readingsFrom host.now s) : Action Empty).untimed =
        pass.untimed := rfl
    obtain ⟨hanswer, hnext⟩ := halike.perform huntimed
    have hleaves : written (session.forward host.now s).2 = [] :=
      (Session.forward_leaves hhost.now session s).trans hs
    have hpass : (other.perform pass).answer.untimed = (other.perform pass).answer := rfl
    rw [hreply, hpass] at hanswer
    rw [hreply] at hnext
    rw [passes]
    refine .after (exec_get session s) (.after (exec_act session s _) ?_)
    -- From here on only the reply counts, not the pass that it came from.
    generalize session.forward host.now s = taken at hanswer hnext hleaves ⊢
    obtain ⟨⟨result, next, journal⟩, s'⟩ := taken
    refine .after (exec_set session s' next) ?_
    cases result with
    | error fault =>
      refine .failed (fun hpasses => ?_) (exec_bind_error rfl) hleaves
      rw [(passes_succ_iff.mp hpasses).1] at hanswer
      cases hanswer
    | ok _ =>
      have hnot : pass ≠ .free := by simp [pass]
      have hrest := ih hnext (hexposing.perform hnot) hleaves
      refine .after (exec_ofExcept next s' (.ok ())) (hrest.congr ?_)
      rw [passes_succ_iff, ← hanswer]
      exact (and_iff_right rfl).symm

end

/-! ## Outputs -/

/-- A session that tells how many inputs or outputs there are is ready with a network. -/
lemma exists_ready_of_count {session : Session Empty} {side : Side} {count : Nat}
    (h : session.count side = .ok count) : ∃ bound, session.ready? = some bound := by
  obtain ⟨bound, hbound, -⟩ := bind_eq_ok_iff.mp h
  exact ⟨bound, Session.bound_eq_ok_iff.mp hbound⟩

section

variable {host : Host (StateM S)} {files : String → Bytes}
  {written : S → List (String × Bytes)} (hhost : Obliging host files written)
include hhost

/-- What the passes tell is printed. -/
lemma exec_report {session : Session Empty} {bound : Bound Empty}
    (hready : session.ready? = some bound) (s : S) (json : Bool) (count nanos : Nat) :
    ∃ s', exec (report host json count nanos) session s = (.ok (), session, s') ∧
      written s' = written s := by
  rw [report, exec_bind_ok (exec_inquire_ok session s (Session.bound_eq_ok_iff.mpr hready)),
    exec_bind_ok (exec_get session s)]
  cases json with
  | false => exact ⟨_, rfl, hhost.print _ s⟩
  | true =>
    cases session.lastMetrics? with
    | none => exact ⟨s, rfl, rfl⟩
    | some metrics => exact ⟨_, rfl, hhost.print _ s⟩

/-- An output is written to its file. -/
lemma exec_writeOutput {session : Session Empty} {index : Nat} {v : Variable}
    (hargument : session.argument .output index = .ok v) {bytes : Bytes}
    (hread : session.read .output index = .ok bytes) (s : S) (json : Bool) (directory : String) :
    ∃ s', exec (writeOutput host json directory index) session s = (.ok (), session, s') ∧
      written s' = written s ++ [(outputPath directory index, bytes)] := by
  obtain ⟨s₁, hmake, hs₁⟩ := hhost.makeDirectories directory s
  obtain ⟨s₂, hwrite, hs₂⟩ := hhost.write (outputPath directory index) bytes s₁
  rw [writeOutput, exec_bind_ok (exec_inquire_ok session s hargument),
    exec_bind_ok (exec_attempt_ok session s hmake)]
  dsimp only
  rw [exec_bind_ok (exec_inquire_ok session s₁ hread),
    exec_bind_ok (exec_attempt_ok session s₁ hwrite)]
  rw [hs₁] at hs₂
  cases json with
  | true => exact ⟨s₂, rfl, hs₂⟩
  | false => exact ⟨_, rfl, (hhost.print _ s₂).trans hs₂⟩

/-- An output is shown. -/
lemma exec_showOutput {session : Session Empty} {index : Nat} {v : Variable}
    (hargument : session.argument .output index = .ok v) (s : S) :
    ∃ s', exec (showOutput host index) session s = (.ok (), session, s') ∧
      written s' = written s := by
  rw [showOutput, exec_bind_ok (exec_inquire_ok session s hargument),
    exec_bind_ok (exec_get session s)]
  exact ⟨_, rfl, hhost.print _ s⟩

end

/-- What is written for an output. -/
def fileOf (directory? : Option String) (index : Nat) (bytes : Bytes) : List (String × Bytes) :=
  directory?.toList.map fun directory => (outputPath directory index, bytes)

/-- All that is written for outputs. -/
def filesOf (directory? : Option String) (outputs : List Bytes) : List (String × Bytes) :=
  match directory? with
  | none => []
  | some directory => outputs.mapIdx fun i bytes => (outputPath directory i, bytes)

/-- It is written for one output after another. -/
lemma filesOf_map_range (directory? : Option String) (contents : Nat → Bytes) (count : Nat) :
    filesOf directory? ((List.range count).map contents) =
      (List.range count).flatMap fun i => fileOf directory? i (contents i) := by
  cases directory? with
  | none => simp [filesOf, fileOf]
  | some directory =>
    have hsingle (i : Nat) : fileOf (some directory) i (contents i) =
        [(outputPath directory i, contents i)] := rfl
    simp only [hsingle, filesOf, ← List.map_eq_flatMap]
    apply List.ext_getElem <;> simp

/-- Steps for one index after another, each of which writes something. -/
lemma exec_forIn {written : S → List (String × Bytes)} {session : Session Empty}
    {body : Nat → Drive (StateM S) (ForInStep PUnit)} {entries : Nat → List (String × Bytes)}
    {indices : List Nat}
    (hbody : ∀ i ∈ indices, ∀ s, ∃ s', exec (body i) session s = (.ok (.yield ⟨⟩), session, s') ∧
      written s' = written s ++ entries i) (s : S) :
    ∃ s', exec (forIn indices ⟨⟩ fun i _ => body i) session s = (.ok ⟨⟩, session, s') ∧
      written s' = written s ++ indices.flatMap entries := by
  induction indices generalizing s with
  | nil => exact ⟨s, rfl, (List.append_nil _).symm⟩
  | cons i indices ih =>
    rw [List.forall_mem_cons] at hbody
    obtain ⟨s₁, hfirst, hs₁⟩ := hbody.1 s
    obtain ⟨s₂, hrest, hs₂⟩ := ih hbody.2 s₁
    refine ⟨s₂, ?_, ?_⟩
    · rw [List.forIn_cons, exec_bind_ok hfirst]
      exact hrest
    · rw [hs₂, hs₁, List.append_assoc, List.flatMap_cons]

/-- What is done with one output. -/
def deliverOne (host : Host (StateM S)) (arguments : RunArguments) (index : Nat) :
    Drive (StateM S) (ForInStep PUnit) :=
  match arguments.outputDirectory with
  | some directory => do
    writeOutput host arguments.json directory index
    return .yield ⟨⟩
  | none =>
    if arguments.json then return .yield ⟨⟩
    else do
      showOutput host index
      return .yield ⟨⟩

/-- An output is written to its file if there is a directory for it. -/
lemma exec_deliverOne {host : Host (StateM S)} {files : String → Bytes}
    {written : S → List (String × Bytes)} (hhost : Obliging host files written)
    {session : Session Empty} {index : Nat} {v : Variable}
    (hargument : session.argument .output index = .ok v) {bytes : Bytes}
    (hread : session.read .output index = .ok bytes) (arguments : RunArguments) (s : S) :
    ∃ s', exec (deliverOne host arguments index) session s = (.ok (.yield ⟨⟩), session, s') ∧
      written s' = written s ++ fileOf arguments.outputDirectory index bytes := by
  unfold deliverOne
  cases arguments.outputDirectory with
  | some directory =>
    obtain ⟨s', hexec, hs'⟩ := exec_writeOutput hhost hargument hread s arguments.json directory
    exact ⟨s', (exec_bind_ok hexec).trans rfl, hs'⟩
  | none =>
    dsimp only
    split
    · exact ⟨s, rfl, (List.append_nil _).symm⟩
    · obtain ⟨s', hexec, hs'⟩ := exec_showOutput hhost hargument s
      exact ⟨s', (exec_bind_ok hexec).trans rfl, hs'.trans (List.append_nil _).symm⟩

/-- **Outputs** are written, each to its file, or shown. Nothing can fail any more.

**Proof sketch.** Every output is there and can be read, since a session exposes the network that
differs in timings. -/
theorem exec_deliver {host : Host (StateM S)} {files : String → Bytes}
    {written : S → List (String × Bytes)} (hhost : Obliging host files written)
    {network : Network} {session other : Session Empty} (halike : session.Alike other)
    (h : other.Exposes network) (arguments : RunArguments) (s : S) :
    ∃ (outputs : List Bytes) (s' : S),
      exec (deliver host arguments) session s = (.ok (), session, s') ∧
        other.count .output = .ok outputs.length ∧
        (∀ i bytes, outputs[i]? = some bytes → other.read .output i = .ok bytes) ∧
        written s' = written s ++ filesOf arguments.outputDirectory outputs := by
  -- Only outputs that are there are looked at, and these can be read.
  set contents : Nat → Bytes := fun i => (other.read .output i).toOption.getD [] with hcontents
  have hshown {i : Nat} (hi : i < (network.listed .output).length) :
      ∃ v, other.argument .output i = .ok v ∧ other.read .output i = .ok (contents i) := by
    obtain ⟨v, -, -, hshows⟩ := h.shows .output i _ (List.getElem?_eq_getElem hi)
    obtain ⟨bytes, hbytes, -⟩ := hshows.contents
    refine ⟨v, hshows.argument_eq, ?_⟩
    simp only [hcontents, hbytes]
    rfl
  have hbody (i : Nat) (hi : i ∈ List.range (network.listed .output).length) (s : S) :
      ∃ s', exec (deliverOne host arguments i) session s = (.ok (.yield ⟨⟩), session, s') ∧
        written s' = written s ++ fileOf arguments.outputDirectory i (contents i) := by
    obtain ⟨v, hargument, hread⟩ := hshown (List.mem_range.mp hi)
    exact exec_deliverOne hhost ((halike.argument_eq .output i).trans hargument)
      ((halike.read_eq .output i).trans hread) arguments s
  obtain ⟨s', hexec, hs'⟩ := exec_forIn hbody s
  refine ⟨(List.range (network.listed .output).length).map contents, s', ?_, ?_, ?_, ?_⟩
  · have hcount := (halike.count_eq .output).trans (h.count_eq .output)
    rw [deliver, exec_bind_ok (exec_inquire_ok session s hcount)]
    exact (exec_bind_ok hexec).trans rfl
  · rw [h.count_eq, List.length_map, List.length_range]
  · intro i bytes hbytes
    obtain ⟨hi, rfl⟩ := List.getElem?_eq_some_iff.mp hbytes
    rw [List.length_map, List.length_range] at hi
    obtain ⟨v, -, hread⟩ := hshown hi
    rw [List.getElem_map, List.getElem_range]
    exact hread
  · rw [hs', filesOf_map_range]

/-! ## Runs -/

/-- What a run does with a session: the descriptor is loaded, the files are laid over the inputs in
order, and passes are made. -/
def script (descriptor : Bytes) (inputs : List Bytes) (passes : Nat) : List (Action Empty) :=
  .load 0 descriptor :: (fillActions 0 inputs ++ List.replicate passes pass)

/-- A run that is possible with a fresh session: the session takes the descriptor, there are at most
as many files as inputs, each has the size of its input, and every pass succeeds. -/
structure Feasible (fresh : Session Empty) (descriptor : Bytes) (inputs : List Bytes)
    (passes : Nat) : Prop where
  load_ok : (fresh.load 0 descriptor).result = .ok ()
  few : ∃ count, (fresh.load 0 descriptor).session.count .input = .ok count ∧ inputs.length ≤ count
  fits : Fits (fresh.load 0 descriptor).session 0 inputs
  passes : Passes (fresh.after (script descriptor inputs 0)) passes

/-- The fresh session after all of it. -/
lemma after_script (fresh : Session Empty) (descriptor : Bytes) (inputs : List Bytes)
    (passes : Nat) :
    fresh.after (script descriptor inputs passes) =
      ((fresh.load 0 descriptor).session.after (fillActions 0 inputs)).after
        (List.replicate passes pass) := by
  rw [script, Session.after, Session.after_append]
  rfl

/-- What is left to be asked for, once the session has taken the descriptor and there are not too
many files. -/
lemma feasible_iff {fresh : Session Empty} {descriptor : Bytes} {inputs : List Bytes}
    {passes count : Nat} (hload : (fresh.load 0 descriptor).result = .ok ())
    (hcount : (fresh.load 0 descriptor).session.count .input = .ok count)
    (hfew : inputs.length ≤ count) :
    Fits (fresh.load 0 descriptor).session 0 inputs ∧
        Passes ((fresh.load 0 descriptor).session.after (fillActions 0 inputs)) passes ↔
      Feasible fresh descriptor inputs passes := by
  have hfilled := after_script fresh descriptor inputs 0
  constructor
  · rintro ⟨hfits, hpasses⟩
    exact ⟨hload, ⟨count, hcount, hfew⟩, hfits, hfilled ▸ hpasses⟩
  · intro h
    exact ⟨h.fits, hfilled ▸ h.passes⟩

/-- What was written are the outputs of a session, each once, if there is a directory for them. -/
def Delivered (final : Session Empty) (directory? : Option String)
    (log : List (String × Bytes)) : Prop :=
  ∃ outputs : List Bytes, final.count .output = .ok outputs.length ∧
    (∀ i bytes, outputs[i]? = some bytes → final.read .output i = .ok bytes) ∧
    log = filesOf directory? outputs

section

variable {host : Host (StateM S)} {files : String → Bytes}
  {written : S → List (String × Bytes)} (hhost : Obliging host files written)
include hhost

/-- Behind the inputs only passes can fail. -/
lemma succeedsIff_finish {session other : Session Empty} (halike : session.Alike other)
    {network : Network} (hexposing : other.Exposing network) {s : S} (hs : written s = [])
    (arguments : RunArguments) (count : Nat) :
    SucceedsIff written
      (do
        let start ← act host.now
        passes host count
        let stop ← act host.now
        report host arguments.json count (stop - start)
        deliver host arguments)
      session s (Passes other count)
      fun _ s' => Delivered (other.after (List.replicate count pass)) arguments.outputDirectory
        (written s') := by
  have hpasses :=
    succeedsIff_passes hhost halike hexposing ((hhost.now s).trans hs) count
  refine .after (exec_act session s host.now) (hpasses.before fun session₁ s₁ h₁ => ?_)
  obtain ⟨halike₁, hexposing₁, hs₁⟩ := h₁
  obtain ⟨bound, hready⟩ :=
    exists_ready_of_count ((halike₁.count_eq .input).trans (hexposing₁.exposes.count_eq .input))
  obtain ⟨s₂, hreport, hs₂⟩ := exec_report hhost hready (host.now s₁).2 arguments.json count
    ((host.now s₁).1 - (host.now s).1)
  obtain ⟨outputs, s₃, hdeliver, hcount, hread, hs₃⟩ :=
    exec_deliver hhost halike₁ hexposing₁.exposes arguments s₂
  refine ⟨session₁, s₃, ?_, outputs, hcount, hread, ?_⟩
  · rw [exec_bind_ok (exec_act session₁ s₁ host.now), exec_bind_ok hreport]
    exact hdeliver
  · rw [hs₃, hs₂, hhost.now, hs₁, List.nil_append]

/-- **Between start and end** of a session, a run succeeds exactly if it is possible with a fresh
session that differs in timings, and then writes what that holds. -/
theorem succeedsIff_drive {session fresh : Session Empty} (halike : session.Alike fresh)
    {s : S} (hs : written s = []) (arguments : RunArguments) (descriptor : Bytes) :
    SucceedsIff written (drive host arguments descriptor) session s
      (Feasible fresh descriptor (arguments.inputs.map files) (max 1 arguments.repetitions))
      fun _ s' => Delivered
        (fresh.after
          (script descriptor (arguments.inputs.map files) (max 1 arguments.repetitions)))
        arguments.outputDirectory (written s') := by
  obtain ⟨hanswer, hnext⟩ := halike.perform (rfl : (Action.load 0 descriptor).untimed = _)
  have hresult : (session.load 0 descriptor).result = (fresh.load 0 descriptor).result :=
    Answer.done.inj hanswer
  have hload := exec_load session s arguments.model descriptor
  rw [drive]
  cases hfresh : (fresh.load 0 descriptor).result with
  | error fault =>
    rw [hresult, hfresh] at hload
    refine .failed (fun h => ?_) (exec_bind_error hload) hs
    rw [h.load_ok] at hfresh
    cases hfresh
  | ok _ =>
    rw [hresult, hfresh] at hload
    obtain ⟨network, hexposing⟩ := Session.exposing_load hfresh
    have hcount := hexposing.exposes.count_eq .input
    refine .after hload (.after (exec_inquire_ok _ s ((hnext.count_eq .input).trans hcount)) ?_)
    dsimp only
    split
    · next hmany =>
      refine .failed (fun h => ?_) (exec_bind_error rfl) hs
      obtain ⟨count, hfound, hle⟩ := h.few
      obtain rfl := Except.ok.inj (hcount.symm.trans hfound)
      rw [List.length_map] at hle
      omega
    · next hfew =>
      rw [Nat.not_lt, ← List.length_map files] at hfew
      have hfill := succeedsIff_fillInputs hhost hnext hexposing hs 0 arguments.inputs
        (by simpa using hfew)
      rw [after_script]
      refine (hfill.bind fun session₁ s₁ h₁ => ?_).congr (feasible_iff hfresh hcount hfew)
      obtain ⟨halike₁, hexposing₁, hs₁⟩ := h₁
      exact succeedsIff_finish hhost halike₁ hexposing₁ hs₁ arguments _

end

/-! ## The command -/

/-- The settings in a file, or the defaults if there is none. -/
def settingsIn (library : Toml.Library) (files : String → Bytes) (path? : Option String) :
    Except SettingsFault Settings :=
  match path? with
  | none => .ok {}
  | some path =>
    match String.fromUTF8? ⟨(files path).toArray⟩ with
    | some text => Settings.ofToml library text
    | none => .error (.unreadable path "stream did not contain valid UTF-8")

/-- Outputs have different files. -/
lemma outputPath_injective (directory : String) : Function.Injective (outputPath directory) := by
  intro i j h
  obtain ⟨separator, hpath⟩ : ∃ separator : String, ∀ index, outputPath directory index =
      directory ++ separator ++ ("output_" ++ toString index ++ ".bin") := ⟨_, fun _ => rfl⟩
  have hchars := congrArg String.toList h
  simp only [hpath, String.toList_append, List.append_cancel_left_eq,
    List.append_cancel_right_eq] at hchars
  have hdigits : Nat.toDigits 10 i = Nat.toDigits 10 j :=
    Nat.toList_repr.symm.trans (hchars.trans Nat.toList_repr)
  rw [← Nat.ofDigitChars_ten_toDigits (n := i), hdigits, Nat.ofDigitChars_ten_toDigits]

/-- No file is written twice. -/
lemma nodup_filesOf (directory? : Option String) (outputs : List Bytes) :
    ((filesOf directory? outputs).map Prod.fst).Nodup := by
  cases directory? with
  | none => exact List.nodup_nil
  | some directory =>
    have hpaths : (filesOf (some directory) outputs).map Prod.fst =
        (List.range outputs.length).map (outputPath directory) := by
      apply List.ext_getElem <;> simp [filesOf]
    rw [hpaths]
    exact List.nodup_range.map (outputPath_injective directory)

section

variable {host : Host (StateM S)} {files : String → Bytes}
  {written : S → List (String × Bytes)} (hhost : Obliging host files written)
include hhost

/-- Settings are read from their file. -/
lemma readSettings_eq (path : String) {s : S} (hs : written s = []) :
    ∃ s', readSettings host path s = (settingsIn host.toml files (some path), s') ∧
      written s' = [] := by
  obtain ⟨s', hread, hs'⟩ := hhost.read path s hs
  refine ⟨s', ?_, hs'⟩
  simp only [readSettings, bind, StateT.bind, hread, settingsIn]
  cases String.fromUTF8? ⟨(files path).toArray⟩ <;> rfl

/-- The settings of a run are those of its file, with timings if these are printed as JSON. -/
lemma settingsOf_eq (arguments : RunArguments) {s : S} (hs : written s = []) :
    ∃ s', settingsOf host arguments s =
        (match settingsIn host.toml files arguments.settings with
          | .ok settings =>
            .ok { settings with profiling := settings.profiling || arguments.json }
          | .error fault => .error (.session (.settings fault)), s') ∧
      written s' = [] := by
  unfold settingsOf
  cases arguments.settings with
  | none => exact ⟨s, rfl, hs⟩
  | some path =>
    obtain ⟨s', hread, hs'⟩ := readSettings_eq hhost path hs
    refine ⟨s', ?_, hs'⟩
    dsimp only
    simp only [bind, StateT.bind, hread]
    cases settingsIn host.toml files (some path) <;> rfl

/-- Without settings there is no session. -/
lemma run_of_error (arguments : RunArguments) {s : S} (hs : written s = [])
    {fault : SettingsFault} (h : settingsIn host.toml files arguments.settings = .error fault) :
    ∃ s', run host arguments s = (⟨.error (.session (.settings fault)), none⟩, s') ∧
      written s' = [] := by
  obtain ⟨s', hsettings, hs'⟩ := settingsOf_eq hhost arguments hs
  rw [h] at hsettings
  refine ⟨s', ?_, hs'⟩
  simp only [run, bind, StateT.bind, hsettings]
  rfl

/-- With settings there is one, and it is freed after the steps that use it. -/
lemma run_of_ok (arguments : RunArguments) {s : S} (hs : written s = [])
    {settings : Settings} (h : settingsIn host.toml files arguments.settings = .ok settings) :
    ∃ (session : Session Empty) (s' : S), session.Alike (Session.new settings .defaults) ∧
      written s' = [] ∧ ∀ result final s'',
        exec (drive host arguments (files arguments.model)) session s' = (result, final, s'') →
          run host arguments s = (⟨result, some final.free.session⟩, s'') := by
  obtain ⟨s₁, hsettings, hs₁⟩ := settingsOf_eq hhost arguments hs
  rw [h] at hsettings
  obtain ⟨s₂, hmap, hs₂⟩ := hhost.map arguments.model s₁ hs₁
  refine ⟨Session.new { settings with profiling := settings.profiling || arguments.json } .defaults,
    s₂, rfl, hs₂, fun result final s'' hexec => ?_⟩
  have hrun := run_eq_of_exec hexec
  unfold StateT.run at hrun
  simp only [run, bind, StateT.bind, hsettings, mapDescriptor, hmap]
  dsimp only [pure, StateT.pure, Except.mapError, StateT.run]
  simp only [StateT.bind, hrun]
  rfl

/-- **Runs.** On a host whose file operations succeed, a run succeeds exactly if its settings can be
read and it is possible with a fresh session. Then it has written every output of that session once,
in order, if there is a directory for them, whether timings are printed as JSON or not; otherwise it
has written nothing. There is a session exactly if the settings can be read, and it is freed in
every case.

**Proof sketch.** The steps that use the session succeed exactly under this condition
(`succeedsIff_drive`), and the session that they use differs from the fresh one in timings only. -/
theorem run_feasible (arguments : RunArguments) (s : S) (hs : written s = []) :
    let ended := (run host arguments s).1
    let log := written (run host arguments s).2
    let descriptor := files arguments.model
    let inputs := arguments.inputs.map files
    let passes := max 1 arguments.repetitions
    (ended.result = .ok () ↔
        ∃ settings, settingsIn host.toml files arguments.settings = .ok settings ∧
          Feasible (Session.new settings .defaults) descriptor inputs passes) ∧
      (∀ settings, settingsIn host.toml files arguments.settings = .ok settings →
        ended.result = .ok () →
          Delivered ((Session.new settings .defaults).after (script descriptor inputs passes))
            arguments.outputDirectory log) ∧
      (∀ fault, ended.result = .error fault → log = []) ∧
      (log.map Prod.fst).Nodup ∧
      (ended.session.isSome = true ↔
        ∃ settings, settingsIn host.toml files arguments.settings = .ok settings) ∧
      ∀ session, ended.session = some session → session.stage = .freed := by
  intro ended log descriptor inputs passes
  cases hloaded : settingsIn host.toml files arguments.settings with
  | error fault =>
    obtain ⟨s', hrun, hs'⟩ := run_of_error hhost arguments hs hloaded
    have hended : ended = ⟨.error (.session (.settings fault)), none⟩ := congrArg Prod.fst hrun
    have hlog : log = [] := (congrArg (fun pair => written pair.2) hrun).trans hs'
    rw [hended, hlog]
    simp
  | ok settings =>
    obtain ⟨session, s', halike, hs', hrun⟩ := run_of_ok hhost arguments hs hloaded
    have hfreed (final : Session Empty) : final.free.session.stage = .freed := by
      unfold Session.free
      split
      next hstage => exact hstage
      next => rfl
    cases succeedsIff_drive hhost halike hs' arguments descriptor with
    | @succeeded final s'' h hexec hgoal =>
      have hpair := hrun _ _ _ hexec
      have hended : ended = ⟨.ok (), some final.free.session⟩ := congrArg Prod.fst hpair
      have hlog : log = written s'' := congrArg (fun pair => written pair.2) hpair
      rw [hended, hlog]
      refine ⟨⟨fun _ => ⟨settings, rfl, h⟩, fun _ => rfl⟩, ?_,
        fun fault hfault => (by cases hfault), ?_, ⟨fun _ => ⟨settings, rfl⟩, fun _ => rfl⟩, ?_⟩
      · intro other hother _
        obtain rfl := Except.ok.inj hother
        exact hgoal
      · obtain ⟨outputs, -, -, hwritten⟩ := hgoal
        rw [hwritten]
        exact nodup_filesOf _ _
      · rintro _ ⟨⟩
        exact hfreed final
    | @failed fault final s'' h hexec hs'' =>
      have hpair := hrun _ _ _ hexec
      have hended : ended = ⟨.error fault, some final.free.session⟩ := congrArg Prod.fst hpair
      have hlog : log = [] := (congrArg (fun pair => written pair.2) hpair).trans hs''
      rw [hended, hlog]
      refine ⟨⟨fun hok => (by cases hok), ?_⟩, fun _ _ hok => (by cases hok), fun _ _ => rfl,
        List.nodup_nil, ⟨fun _ => ⟨settings, rfl⟩, fun _ => rfl⟩, ?_⟩
      · rintro ⟨other, hother, hfeasible⟩
        obtain rfl := Except.ok.inj hother
        exact absurd hfeasible h
      · rintro _ ⟨⟩
        exact hfreed final

end

/-- A host with the given files that only notes what is written. -/
def noting (files : String → Bytes) : Host (StateM (List (String × Bytes))) where
  read path := return .ok (files path)
  map path := return .ok (files path)
  makeDirectories _ := return .ok ()
  write path bytes := do
    modify (· ++ [(path, bytes)])
    return .ok ()
  toml := Toml.standard
  now := return 0
  print _ := return

/-- It is obliging. -/
lemma obliging_noting (files : String → Bytes) : Obliging (noting files) files id where
  read _ _ h := ⟨_, rfl, h⟩
  map _ _ h := ⟨_, rfl, h⟩
  makeDirectories _ s := ⟨s, rfl, rfl⟩
  write _ _ _ := ⟨_, rfl, rfl⟩
  now _ := rfl
  print _ _ := rfl

/-- A network whose two inputs are the same variable, which is an output as well. -/
def twice : Draft where
  buffers := [1, 1]
  variableTable :=
    [{ id := 0, dims := [1], elementType := .float, backing := .buffer 0 },
     { id := 1, dims := [1], elementType := .float, backing := .buffer 1 }]
  functions := [{ op := .relu, inputs := [0], outputs := [1] }]
  inputs := [0, 0]
  outputs := [1, 0]

/-- The descriptor, two values and files without contents. -/
def twiceFiles (path : String) : Bytes :=
  if path = "model" then twice.encode
  else if path = "one" then [0, 0, 128, 63]
  else if path = "two" then [0, 0, 0, 64]
  else []

/-- The second file is laid over the first one, and both outputs are written; if the second file is
too short, nothing is. -/
theorem run_feasible_twice :
    let both : RunArguments :=
      { model := "model", inputs := ["one", "two"], outputDirectory := some "out", repetitions := 0,
        json := true }
    let short : RunArguments := { both with inputs := ["one", "none"], json := false }
    let succeeding := run (noting twiceFiles) both []
    let failing := run (noting twiceFiles) short []
    Feasible (Session.new {} .defaults) twice.encode [[0, 0, 128, 63], [0, 0, 0, 64]] 1 ∧
      succeeding.1.result = .ok () ∧
      succeeding.2 = [("out/output_0.bin", [0, 0, 0, 64]), ("out/output_1.bin", [0, 0, 0, 64])] ∧
      failing.1.result = .error (.inputSize 1 "none" 0 4) ∧ failing.2 = [] ∧
      ∃ session, failing.1.session = some session ∧ session.stage = .freed := by
  intro both short succeeding failing
  have hsucceeds : succeeding.1.result = .ok () := by decide +kernel
  have hfails : failing.1.result = .error (.inputSize 1 "none" 0 4) := by decide +kernel
  obtain ⟨hiff, -, -, -, -, -⟩ := run_feasible (obliging_noting twiceFiles) both [] rfl
  obtain ⟨-, -, hnothing, -, hstarted, hfreed⟩ :=
    run_feasible (obliging_noting twiceFiles) short [] rfl
  obtain ⟨settings, hsettings, hfeasible⟩ := hiff.mp hsucceeds
  obtain rfl := Except.ok.inj hsettings
  obtain ⟨session, hsession⟩ := Option.isSome_iff_exists.mp (hstarted.mpr ⟨{}, rfl⟩)
  exact ⟨hfeasible, hsucceeds, by decide +kernel, hfails, hnothing _ hfails, session, hsession,
    hfreed session hsession⟩

end Command

end Inference
