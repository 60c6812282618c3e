import Inference.Proofs.Toml.Lines
import Inference.Toml.Standard

set_option autoImplicit false
set_option relaxedAutoImplicit false

/-!
# The standard library reads back what it writes

A plain table is written as lines of definitions, and a text of such lines is read as the table of
them, whatever the texts in it are.

## Main results

* `Toml.exists_lines` — a plain table is written as lines.
* `Toml.faithful_standard` — the standard library reads back the plain tables that it writes.
-/

namespace Inference

namespace Toml

/-- A value of a plain table has a written form. -/
lemma exists_valueText? {v : Value} (h : v.Plain) :
    ∃ written, valueText? v = some written ∧ Writes written v := by
  cases v with
  | text s => exact ⟨_, rfl, writes_quoted s⟩
  | integer n => exact ⟨_, rfl, writes_integer h.1 h.2⟩
  | truth on => exact ⟨_, rfl, writes_truth on⟩
  | other => exact h.elim

/-- A definition of a plain table is written as its line. -/
lemma exists_lineOf? {key : String} {v : Value}
    (hbare : key.toList ≠ [] ∧ ∀ c ∈ key.toList, isBareKey c = true) (hv : v.Plain) :
    ∃ line : Line,
      lineOf? (key, v) = some line.text ∧ line.Sound ∧ line.entry = (key, .value v) := by
  obtain ⟨written, hwritten, hwrites⟩ := exists_valueText? hv
  refine ⟨⟨key.toList, written, v⟩, ?_, ⟨hbare.1, hbare.2, hwrites⟩, ?_⟩
  · rw [lineOf?, if_pos ⟨hbare.1, List.all_eq_true.mpr hbare.2⟩, hwritten, Option.map_some]
    simp [Line.text]
  · rw [Line.entry, String.ofList_toList]

/-- **A plain table is written as lines**: one for each definition, in order.

**Proof sketch.** Induction on the definitions. -/
theorem exists_lines {entries : List (String × Value)}
    (hbare : ∀ entry ∈ entries,
      entry.1.toList ≠ [] ∧ ∀ c ∈ entry.1.toList, isBareKey c = true)
    (hvalues : ∀ entry ∈ entries, entry.2.Plain) :
    ∃ lines : List Line, textOf? entries = some (lines.flatMap Line.text) ∧
      (∀ line ∈ lines, line.Sound) ∧
      lines.map Line.entry = entries.map fun entry => (entry.1, .value entry.2) := by
  induction entries with
  | nil => exact ⟨[], rfl, by simp, rfl⟩
  | cons entry entries ih =>
    rw [List.forall_mem_cons] at hbare hvalues
    obtain ⟨line, hline, hsound, hentry⟩ := exists_lineOf? hbare.1 hvalues.1
    obtain ⟨lines, hlines, hall, hentries⟩ := ih hbare.2 hvalues.2
    refine ⟨line :: lines, ?_, List.forall_mem_cons.mpr ⟨hsound, hall⟩, ?_⟩
    · rw [textOf?, hline, hlines]
      rfl
    · rw [List.map_cons, List.map_cons, hentry, hentries]

/-- The text that the standard library has for a table. -/
lemma write_standard (root : Root) :
    standard.write root = (textOf? root.entries).map String.ofList := rfl

/-- What the standard library reads has the definitions of the table of the text. -/
lemma read_standard {text : String} {t : Table} (h : document? text = some t) :
    standard.read text = some (t.root (distinct_document? h)) :=
  Option.pmap_eq_some_iff.mpr ⟨t, distinct_document? h, h, rfl⟩

/-- **The standard library** reads back the plain tables that it writes. -/
theorem faithful_standard : standard.Faithful where
  reads_written root hplain := by
    obtain ⟨lines, hlines, hsound, hentries⟩ := exists_lines hplain.bare hplain.values
    have hkeys : (lines.map fun line => String.ofList line.key) = root.entries.map Prod.fst := by
      have hfirst := congrArg (List.map Prod.fst) hentries
      rwa [List.map_map, List.map_map] at hfirst
    have hdocument : document? (String.ofList (lines.flatMap Line.text)) =
        some (.mk .header (lines.map Line.entry)) :=
      document?_lines hsound (hkeys ▸ root.distinct) String.toList_ofList
    refine ⟨_, by rw [write_standard, hlines, Option.map_some], ?_⟩
    rw [read_standard hdocument]
    obtain ⟨entries, hdistinct⟩ := root
    simp only [Table.root, Table.entries, hentries, List.map_map, Option.some.injEq, Root.mk.injEq]
    exact List.map_id _

end Toml

end Inference
