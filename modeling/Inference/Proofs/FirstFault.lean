import Inference.Proofs.Traversal

set_option autoImplicit false
set_option relaxedAutoImplicit false

/-!
# The fault of the first check that fails

What is read in steps, each of which can fail, is checked in an order, and of several faults it is
the first one that is reported. This file has lists of checks, each a condition with the fault of
its violation, and relates them to computations: one follows a list if it gives its value when all
checks hold, and otherwise the fault of the first one that does not. Computations that are put
together follow lists that are put together in the same order.

## Main definitions

* `Check`, `FirstFailing` — a condition with its fault, and the fault of the first violation.
* `Follows` — a computation that reports the first violation.

## Main results

* `firstFailing_append_iff`, `firstFailing_flatten_iff` — the first violation in lists of checks
  that are put together.
* `Follows.bind`, `Follows.traverse` — what a chain and a table follow.
* `Follows.eq_error_iff`, `Follows.exists_ok_iff` — what a computation that follows a list gives.
-/

namespace Inference

/-- A condition, and the fault that is reported if it is violated. -/
structure Check (ε : Type) where
  holds : Prop
  fault : ε

variable {ε α β : Type}

/-- All checks of a list hold. -/
def AllHold (checks : List (Check ε)) : Prop :=
  ∀ check ∈ checks, check.holds

/-- The fault of the first check of a list that is violated: all checks before it hold. -/
def FirstFailing (checks : List (Check ε)) (fault : ε) : Prop :=
  ∃ before check after, checks = before ++ check :: after ∧ AllHold before ∧ ¬check.holds ∧
    check.fault = fault

section

variable {check : Check ε} {checks front back : List (Check ε)} {fault : ε}

/-- There is nothing to hold without checks. -/
@[simp]
lemma allHold_nil : AllHold ([] : List (Check ε)) := by
  simp [AllHold]

/-- A check before others. -/
@[simp]
lemma allHold_cons : AllHold (check :: checks) ↔ check.holds ∧ AllHold checks :=
  List.forall_mem_cons

/-- Checks one after another. -/
@[simp]
lemma allHold_append : AllHold (front ++ back) ↔ AllHold front ∧ AllHold back :=
  List.forall_mem_append

/-- Nothing is violated without checks. -/
@[simp]
lemma not_firstFailing_nil : ¬FirstFailing [] fault := by
  rintro ⟨before, check, after, h, -⟩
  simp at h

/-- The first check of a list is violated, or it holds and one of the others is. -/
lemma firstFailing_cons_iff :
    FirstFailing (check :: checks) fault ↔
      (¬check.holds ∧ check.fault = fault) ∨ (check.holds ∧ FirstFailing checks fault) := by
  constructor
  · rintro ⟨before, violated, after, h, hbefore, hviolated, hfault⟩
    cases before with
    | nil =>
      obtain ⟨rfl, rfl⟩ := List.cons.inj h
      exact .inl ⟨hviolated, hfault⟩
    | cons first before =>
      obtain ⟨rfl, rfl⟩ := List.cons.inj h
      rw [allHold_cons] at hbefore
      exact .inr ⟨hbefore.1, before, violated, after, rfl, hbefore.2, hviolated, hfault⟩
  · rintro (⟨hviolated, hfault⟩ | ⟨hholds, hlater⟩)
    · exact ⟨[], check, checks, rfl, allHold_nil, hviolated, hfault⟩
    · obtain ⟨before, violated, after, rfl, hbefore, hviolated, hfault⟩ := hlater
      exact ⟨check :: before, violated, after, rfl, allHold_cons.mpr ⟨hholds, hbefore⟩, hviolated,
        hfault⟩

/-- Of one check, its own violation is the first. -/
@[simp]
lemma firstFailing_singleton : FirstFailing [check] fault ↔ ¬check.holds ∧ check.fault = fault := by
  simp [firstFailing_cons_iff]

/-- The first violation is in the front, or the front holds and it is in the back. -/
theorem firstFailing_append_iff :
    FirstFailing (front ++ back) fault ↔
      FirstFailing front fault ∨ (AllHold front ∧ FirstFailing back fault) := by
  induction front with
  | nil => simp
  | cons first front ih =>
    rw [List.cons_append, firstFailing_cons_iff, firstFailing_cons_iff, allHold_cons, ih]
    tauto

/-- All checks hold, or there is a first one that does not. -/
lemma allHold_or_firstFailing (checks : List (Check ε)) :
    AllHold checks ∨ ∃ fault, FirstFailing checks fault := by
  induction checks with
  | nil => exact .inl allHold_nil
  | cons check checks ih =>
    simp only [allHold_cons, firstFailing_cons_iff]
    by_cases hholds : check.holds
    · rcases ih with hrest | ⟨fault, hfault⟩
      · exact .inl ⟨hholds, hrest⟩
      · exact .inr ⟨fault, .inr ⟨hholds, hfault⟩⟩
    · exact .inr ⟨check.fault, .inl ⟨hholds, rfl⟩⟩

/-- If there is a violation, not all checks hold. -/
lemma FirstFailing.not_allHold (h : FirstFailing checks fault) : ¬AllHold checks := by
  obtain ⟨before, check, after, rfl, -, hviolated, -⟩ := h
  simp [hviolated]

/-- The fault is that of a check of the list that is violated. -/
lemma FirstFailing.exists_mem (h : FirstFailing checks fault) :
    ∃ check ∈ checks, ¬check.holds ∧ check.fault = fault := by
  obtain ⟨before, check, after, rfl, -, hviolated, hfault⟩ := h
  exact ⟨check, by simp, hviolated, hfault⟩

/-- **Tables**: the first violation in a table is the first one of an entry, and the checks of all
earlier entries hold.

**Proof sketch.** Induction on the entries: the violation is in the first one, or the first one
holds and it is in the others. -/
theorem firstFailing_flatten_iff {entries : List α} {f : Nat → α → List (Check ε)} :
    FirstFailing (entries.mapIdx f).flatten fault ↔
      ∃ i entry, entries[i]? = some entry ∧ FirstFailing (f i entry) fault ∧
        ∀ j < i, ∀ earlier, entries[j]? = some earlier → AllHold (f j earlier) := by
  induction entries generalizing f with
  | nil => simp
  | cons entry entries ih =>
    rw [List.mapIdx_cons, List.flatten_cons, firstFailing_append_iff, ih]
    constructor
    · rintro (hfirst | ⟨hfirst, i, other, hother, hfault, hearlier⟩)
      · exact ⟨0, entry, rfl, hfirst, by simp⟩
      · refine ⟨i + 1, other, by simpa using hother, hfault, fun j hj earlier hentry => ?_⟩
        cases j with
        | zero =>
          obtain rfl : entry = earlier := by simpa using hentry
          exact hfirst
        | succ j => exact hearlier j (by omega) earlier (by simpa using hentry)
    · rintro ⟨i, other, hother, hfault, hearlier⟩
      cases i with
      | zero =>
        obtain rfl : entry = other := by simpa using hother
        exact .inl hfault
      | succ i =>
        refine .inr ⟨hearlier 0 (by omega) entry rfl, i, other, by simpa using hother, hfault, ?_⟩
        exact fun j hj earlier hentry => hearlier (j + 1) (by omega) earlier (by simpa using hentry)

end

/-! ## Tables with one check for each entry -/

/-- Lists of one are put together to the list of what they hold. -/
lemma flatten_mapIdx_singleton {entries : List α} {f : Nat → α → β} :
    (entries.mapIdx fun i entry => [f i entry]).flatten = entries.mapIdx f := by
  rw [List.mapIdx_eq_zipIdx_map, List.mapIdx_eq_zipIdx_map, ← List.flatMap_def,
    List.map_eq_flatMap]

/-- The first violation is that of an entry, and all earlier entries pass. -/
lemma firstFailing_mapIdx_iff {entries : List α} {check : Nat → α → Check ε} {fault : ε} :
    FirstFailing (entries.mapIdx check) fault ↔
      ∃ i entry, entries[i]? = some entry ∧
        (¬(check i entry).holds ∧ (check i entry).fault = fault) ∧
        ∀ j < i, ∀ earlier, entries[j]? = some earlier → (check j earlier).holds := by
  rw [← flatten_mapIdx_singleton, firstFailing_flatten_iff]
  simp only [firstFailing_singleton, allHold_cons, allHold_nil, and_true]

/-! ## Computations -/

/-- A computation that gives its value if all checks of a list hold, and the fault of the first
violation otherwise. -/
structure Follows (x : Except ε α) (checks : List (Check ε)) (value : α) : Prop where
  ok : AllHold checks → x = .ok value
  error : ∀ fault, FirstFailing checks fault → x = .error fault

namespace Follows

variable {x : Except ε α} {checks more : List (Check ε)} {value : α} {fault : ε}

/-- A value is not checked. -/
lemma pure (value : α) : Follows (.ok value : Except ε α) [] value where
  ok _ := rfl
  error _ h := absurd h not_firstFailing_nil

/-- A chain follows the checks of its steps. The second step need only follow its checks on the
value of the first, and if this is given.

**Proof sketch.** If the first step fails, it does so with the first violation of its own checks,
and this is the first violation of all. -/
theorem bind {f : α → Except ε β} {result : β} (h : Follows x checks value)
    (hnext : AllHold checks → Follows (f value) more result) :
    Follows (x >>= f) (checks ++ more) result where
  ok hall := by
    rw [allHold_append] at hall
    rw [h.ok hall.1]
    exact (hnext hall.1).ok hall.2
  error fault hfault := by
    rcases firstFailing_append_iff.mp hfault with hfirst | ⟨hfirst, hlater⟩
    · rw [h.error fault hfirst]
      rfl
    · rw [h.ok hfirst]
      exact (hnext hfirst).error fault hlater

/-- A computation that is decided by one check. -/
lemma single {check : Check ε} (hok : check.holds → x = .ok value)
    (herror : ¬check.holds → x = .error check.fault) : Follows x [check] value where
  ok hall := hok (by simpa using hall)
  error fault hfault := by
    obtain ⟨hviolated, rfl⟩ := firstFailing_singleton.mp hfault
    exact herror hviolated

/-- A value that is transformed is checked as before. -/
lemma map {f : α → β} (h : Follows x checks value) : Follows (f <$> x) checks (f value) where
  ok hall := by
    rw [h.ok hall]
    rfl
  error fault hfault := by
    rw [h.error fault hfault]
    rfl

/-- A refusal in front of a computation is a check in front of its checks. -/
lemma refusal {p holds : Prop} [Decidable p] (hcheck : holds ↔ ¬p)
    (h : ¬p → Follows x checks value) :
    Follows (if p then .error fault else x) (⟨holds, fault⟩ :: checks) value where
  ok hall := by
    rw [allHold_cons, hcheck] at hall
    rw [if_neg hall.1, (h hall.1).ok hall.2]
  error found hfound := by
    rw [firstFailing_cons_iff, hcheck, not_not] at hfound
    rcases hfound with ⟨hp, rfl⟩ | ⟨hp, hlater⟩
    · rw [if_pos hp]
    · rw [if_neg hp, (h hp).error found hlater]

/-- A search for a fault is a refusal in front of the rest of the search. -/
lemma search {φ : Type} {p holds : Prop} [Decidable p] {first : φ} {rest : Option φ}
    {report : φ → Except ε α} (hcheck : holds ↔ ¬p) (hreport : report first = .error fault)
    (h : ¬p → Follows (rest.elim x report) checks value) :
    Follows ((if p then some first else rest).elim x report) (⟨holds, fault⟩ :: checks) value := by
  have hstep : (if p then some first else rest).elim x report =
      if p then .error fault else rest.elim x report := by
    split
    · exact hreport
    · rfl
  rw [hstep]
  exact refusal hcheck h

section

variable {entries : List α} {f : Nat → α → Except ε β}

/-- An entry is read, and then those behind it. -/
lemma traverseFrom_cons_eq_bind {start : Nat} {entry : α} :
    traverseFrom f start (entry :: entries) =
      f start entry >>= fun y => (y :: ·) <$> traverseFrom f (start + 1) entries := by
  rw [traverseFrom]
  cases f start entry with
  | error fault => rfl
  | ok y => cases traverseFrom f (start + 1) entries <;> rfl

variable {g : Nat → α → List (Check ε)} {values : Nat → α → β}

/-- A table that is read from an index on follows the checks of its entries. -/
lemma traverseFrom (h : ∀ i entry, Follows (f i entry) (g i entry) (values i entry))
    (start : Nat) :
    Follows (traverseFrom f start entries) (entries.mapIdx fun i => g (start + i)).flatten
      (entries.mapIdx fun i => values (start + i)) := by
  induction entries generalizing start with
  | nil => exact pure []
  | cons entry entries ih =>
    have hrest := ih (start + 1)
    simp only [Nat.add_assoc, Nat.add_comm 1] at hrest
    rw [traverseFrom_cons_eq_bind, List.mapIdx_cons, List.mapIdx_cons, List.flatten_cons]
    exact (h start entry).bind fun _ => hrest.map

/-- A table follows the checks of its entries, one entry after another.

**Proof sketch.** Induction on the entries, for tables that are read from any index on. -/
theorem traverse (h : ∀ i entry, Follows (f i entry) (g i entry) (values i entry)) :
    Follows (Inference.traverse f entries) (entries.mapIdx g).flatten (entries.mapIdx values) := by
  have hfrom : Follows (Inference.traverseFrom f 0 entries)
      (entries.mapIdx fun i => g (0 + i)).flatten (entries.mapIdx fun i => values (0 + i)) :=
    traverseFrom h 0
  simp only [Nat.zero_add] at hfrom
  exact hfrom

end

/-- The same for entries that are each decided by one check, and have values that do not depend on
their indices. -/
theorem traverse_single {entries : List α} {f : Nat → α → Except ε β} {check : Nat → α → Check ε}
    {value : α → β} (h : ∀ i entry, Follows (f i entry) [check i entry] (value entry)) :
    Follows (Inference.traverse f entries) (entries.mapIdx check) (entries.map value) := by
  rw [← flatten_mapIdx_singleton, ← mapIdx_const]
  exact traverse h

/-- The same for checks that do not depend on the indices. -/
theorem traverse_map {entries : List α} {f : Nat → α → Except ε β} {check : α → Check ε}
    {value : α → β} (h : ∀ i entry, Follows (f i entry) [check entry] (value entry)) :
    Follows (Inference.traverse f entries) (entries.map check) (entries.map value) := by
  rw [← mapIdx_const]
  exact traverse_single h

/-- A computation fails exactly with the first violation of the checks that it follows. -/
theorem eq_error_iff (h : Follows x checks value) :
    x = .error fault ↔ FirstFailing checks fault := by
  constructor
  · intro hx
    rcases allHold_or_firstFailing checks with hall | ⟨other, hother⟩
    · rw [h.ok hall] at hx
      cases hx
    · obtain rfl := Except.error.inj (hx.symm.trans (h.error other hother))
      exact hother
  · exact h.error fault

/-- It gives a value exactly if all checks hold. -/
theorem exists_ok_iff (h : Follows x checks value) : (∃ found, x = .ok found) ↔ AllHold checks := by
  constructor
  · rintro ⟨found, hx⟩
    rcases allHold_or_firstFailing checks with hall | ⟨fault, hfault⟩
    · exact hall
    · rw [h.error fault hfault] at hx
      cases hx
  · exact fun hall => ⟨value, h.ok hall⟩

end Follows

end Inference
