import Inference.Proofs.Engine.Reference

set_option autoImplicit false
set_option relaxedAutoImplicit false

/-!
# Feed-forward networks

In a feed-forward network, a function never reads what it or a later function writes. If moreover
every function that succeeds replaces the whole of its outputs, and looks at nothing but its inputs
while it does so, then a pass forgets what stood in the outputs before it: two runs that start from
contents that agree everywhere else stop at the same function, if they stop at all, and end with the
same contents, up to the outputs of the functions from there on.

## Main definitions

* `Network.FeedForward` — no function reads a variable that it or a later function writes.
* `Reference.Task.Overwrites` — a function that replaces its outputs if it succeeds.

## Main results

* `Network.feedForward_iff` — being feed-forward, function by function and pair by pair.
* `Reference.store_congr` — new contents of the full length hide the old ones.
* `Reference.run_forgets` — two runs that agree off the outputs have the same result and leave the
  same contents.
-/

namespace Inference

/-- No function reads a variable that it or a later function writes. -/
def Network.FeedForward (network : Network) : Prop :=
  ∀ (i j : Nat) (reader writer : FunctionEntry), i ≤ j →
    network.functions[i]? = some reader → network.functions[j]? = some writer →
      ∀ v ∈ reader.inputs, v ∉ writer.outputs

/-- A network is feed-forward when no function reads what it writes, and of two functions the first
does not read what the second writes. -/
theorem Network.feedForward_iff {network : Network} :
    network.FeedForward ↔
      (∀ entry ∈ network.functions, ∀ v ∈ entry.inputs, v ∉ entry.outputs) ∧
        network.functions.Pairwise fun reader writer =>
          ∀ v ∈ reader.inputs, v ∉ writer.outputs := by
  rw [List.pairwise_iff_getElem]
  constructor
  · intro h
    refine ⟨fun entry hentry => ?_, fun i j hi hj hlt => ?_⟩
    · obtain ⟨i, hi⟩ := List.getElem?_of_mem hentry
      exact h i i entry entry (Nat.le_refl i) hi hi
    · exact h i j _ _ (Nat.le_of_lt hlt) (List.getElem?_eq_getElem hi)
        (List.getElem?_eq_getElem hj)
  · rintro ⟨hself, hlater⟩ i j reader writer hle hreader hwriter
    rcases Nat.lt_or_eq_of_le hle with hlt | rfl
    · obtain ⟨hi, rfl⟩ := List.getElem?_eq_some_iff.mp hreader
      obtain ⟨hj, rfl⟩ := List.getElem?_eq_some_iff.mp hwriter
      exact hlater i j hi hj hlt
    · obtain rfl : reader = writer := Option.some.inj (hreader.symm.trans hwriter)
      exact hself reader (List.mem_of_getElem? hreader)

instance (network : Network) : Decidable network.FeedForward :=
  decidable_of_iff _ Network.feedForward_iff.symm

namespace Reference

variable {σ : Type}

/-- Contents in which every variable has its length. -/
def Sized (lengths : Nat → Nat) (arrays : Arrays) : Prop :=
  ∀ i, (arrays i).length = lengths i

/-- On contents of given lengths, whether a function succeeds is determined by its inputs alone, and
if it does, it replaces the whole of its outputs by what its inputs determine. -/
structure Task.Overwrites (task : Task σ) (lengths : Nat → Nat) : Prop where
  fills : ∀ (arrays : Arrays) (state : Option σ), Sized lengths arrays →
    (task.execute (task.call arrays) state).outputs.map List.length =
      task.entry.outputs.map lengths
  result_eq : ∀ (left right : Arrays) (state state' : Option σ), Sized lengths left →
    Sized lengths right → (∀ i ∈ task.entry.inputs, left i = right i) →
      (task.execute (task.call left) state).result =
        (task.execute (task.call right) state').result
  ignores : ∀ (left right : Arrays) (state state' : Option σ), Sized lengths left →
    Sized lengths right → (∀ i ∈ task.entry.inputs, left i = right i) →
      (task.execute (task.call left) state).result = .ok () →
        (task.execute (task.call left) state).outputs =
          (task.execute (task.call right) state').outputs

section

variable {lengths : Nat → Nat}

/-- Storing keeps every length. -/
lemma Sized.store {arrays : Arrays} (h : Sized lengths arrays) (indices : List Nat)
    (news : List Bytes) : Sized lengths (Reference.store arrays indices news) := by
  intro i
  rw [length_store, h i]

/-- New contents of the full length hide the old ones: what is stored does not depend on the
contents of the variables that are listed. -/
lemma store_congr {left right : Arrays} (hleft : Sized lengths left) (hright : Sized lengths right)
    {indices : List Nat} {news : List Bytes}
    (hnews : news.map List.length = indices.map lengths) {i : Nat}
    (hi : i ∈ indices ∨ left i = right i) :
    store left indices news i = store right indices news i := by
  induction indices generalizing left right news with
  | nil => simpa [store] using hi
  | cons index indices ih =>
    cases news with
    | nil => simp at hnews
    | cons new news =>
      rw [List.map_cons, List.map_cons, List.cons.injEq] at hnews
      -- both stores put the new bytes in place of the old ones
      have hold (arrays : Arrays) (h : Sized lengths arrays) :
          Bytes.overwrite (arrays index) new = new :=
        Bytes.overwrite_of_length_eq (hnews.1.trans (h index).symm)
      have hsized (arrays : Arrays) (h : Sized lengths arrays) :
          Sized lengths (Function.update arrays index new) := by
        intro j
        by_cases hj : j = index
        · rw [hj, Function.update_self, hnews.1]
        · rw [Function.update_of_ne hj, h j]
      rw [store, store, hold left hleft, hold right hright]
      apply ih (hsized left hleft) (hsized right hright) hnews.2
      by_cases hsame : i = index
      · right
        rw [hsame, Function.update_self, Function.update_self]
      · rw [Function.update_of_ne hsame, Function.update_of_ne hsame]
        exact hi.imp_left fun hmem => (List.mem_cons.mp hmem).resolve_left hsame

/-- **Forgetting**: two runs over functions in ascending order that replace their outputs, none of
which reads what it or a later one writes, fail alike if they start from contents that agree off the
outputs. They leave the same contents, except that the outputs of the function that they stop at,
and of those behind it, may differ. The private states that they start with do not matter.

**Proof sketch.** Induction on the functions. The first one reads variables that no function still
to come writes, so it is shown the same inputs in both runs. If it fails, nothing but its outputs is
changed. If it succeeds, it gives the same new contents in both runs. After these were stored, the
contents agree also on its outputs (`store_congr`), so they agree off the outputs of the other
functions. -/
theorem run_forgets {todo : List (Task σ)} {entries : List FunctionEntry} {left right : Arrays}
    {states states' : Nat → Option σ} (hentries : todo.map Task.entry = entries)
    (hoverwrites : ∀ task ∈ todo, task.Overwrites lengths)
    (horder : entries.Pairwise fun first later => first.index < later.index)
    (hself : ∀ entry ∈ entries, ∀ v ∈ entry.inputs, v ∉ entry.outputs)
    (hlater : entries.Pairwise fun reader writer => ∀ v ∈ reader.inputs, v ∉ writer.outputs)
    (hleft : Sized lengths left) (hright : Sized lengths right)
    (hagree : ∀ i, (∀ entry ∈ entries, i ∉ entry.outputs) → left i = right i) :
    (run todo left states).failure = (run todo right states').failure ∧
      ∀ i, (∀ failure ∈ (run todo left states).failure, ∀ entry ∈ entries,
          failure.function ≤ entry.index → i ∉ entry.outputs) →
        (run todo left states).arrays i = (run todo right states').arrays i := by
  subst hentries
  induction todo generalizing left right states states' with
  | nil => exact ⟨rfl, fun i _ => hagree i (by simp)⟩
  | cons task todo ih =>
    rw [List.forall_mem_cons] at hoverwrites
    rw [List.map_cons, List.pairwise_cons] at horder
    rw [List.map_cons, List.forall_mem_cons] at hself
    rw [List.map_cons, List.pairwise_cons] at hlater
    obtain ⟨htask, hoverwrites⟩ := hoverwrites
    have hinputs : ∀ i ∈ task.entry.inputs, left i = right i := by
      intro i hi
      apply hagree
      rw [List.map_cons, List.forall_mem_cons]
      exact ⟨hself.1 i hi, fun other hother => hlater.1 other hother i hi⟩
    have hresults := htask.result_eq left right (states task.entry.index)
      (states' task.entry.index) hleft hright hinputs
    cases hresult : (task.execute (task.call left) (states task.entry.index)).result with
    | error fault =>
      rw [run_cons_error rfl hresult, run_cons_error rfl (hresults.symm.trans hresult)]
      refine ⟨rfl, fun i hi => ?_⟩
      have hnone : ∀ entry ∈ (task :: todo).map Task.entry, i ∉ entry.outputs := by
        intro entry hentry
        refine hi _ rfl entry hentry ?_
        obtain rfl | hentry := List.mem_cons.mp hentry
        · exact Nat.le_refl _
        · exact Nat.le_of_lt (horder.1 entry hentry)
      have hi' := hnone task.entry List.mem_cons_self
      exact (store_of_not_mem hi' _).trans ((hagree i hnone).trans (store_of_not_mem hi' _).symm)
    | ok _ =>
      obtain ⟨leftLater, hleftLater, hleftRun⟩ := run_cons_ok rfl hresult todo
      obtain ⟨rightLater, hrightLater, hrightRun⟩ :=
        run_cons_ok rfl (hresults.symm.trans hresult) todo
      rw [hleftRun, hrightRun, hleftLater, hrightLater]
      have hstored : ∀ i, (∀ entry ∈ todo.map Task.entry, i ∉ entry.outputs) →
          store left task.entry.outputs
              (task.execute (task.call left) (states task.entry.index)).outputs i =
            store right task.entry.outputs
              (task.execute (task.call right) (states' task.entry.index)).outputs i := by
        intro i hi
        rw [htask.ignores left right _ (states' task.entry.index) hleft hright hinputs hresult]
        apply store_congr hleft hright (htask.fills right _ hright)
        by_cases hmem : i ∈ task.entry.outputs
        · exact .inl hmem
        · exact .inr (hagree i (List.forall_mem_cons.mpr ⟨hmem, hi⟩))
      obtain ⟨hfailure, harrays⟩ := ih hoverwrites (hleft.store _ _) (hright.store _ _) horder.2
        hself.2 hlater.2 hstored
      refine ⟨hfailure, fun i hi => harrays i fun failure hstop entry hentry => ?_⟩
      exact hi failure hstop entry (List.mem_cons_of_mem _ hentry)

end

end Reference

end Inference
