import WatTypes.Proofs.Normalisation
import WatTypes.Proofs.RoundTrip

/-!
# Canonical text is stable

A source that is read as a module can be replaced by the canonical text of the module: under the
same limit on how deep parentheses nest this is read as the same module up to spans, of which the
canonical text is the same again (`stable_of_read`). Tokens of a source can only be a module that
can be written, and its canonical text nests no deeper than the source (`wellFormed_of_read`).
-/

set_option autoImplicit false
set_option relaxedAutoImplicit false

namespace WatTypes

open Grammar

/-- A module that is read can be written, and its lexemes nest within the limit under which it is
read. -/
theorem wellFormed_of_read {file source : String} {limit : Option NestingLimit} {m : TypeModule}
    (h : TypeModule.read file limit source = .ok m) :
    m.WellFormed ∧ Lexeme.Nests limit 0 m.lexemes := by
  unfold TypeModule.read at h
  split at h
  · cases h
  · rename_i tokens htokens
    split at h
    · rename_i found hfound
      cases h
      obtain ⟨hscannable, hnests⟩ := scanned_of_read htokens
      have hends : tokens.EndsOnce := fun token hmem hend ↦ by
        have hlexeme := hscannable token.lexeme (List.mem_map_of_mem hmem)
        rw [hend] at hlexeme
        exact hlexeme
      obtain ⟨hmodule, -⟩ := module_of_ofTokens hends hfound
      obtain ⟨hwellFormed, hdeeper⟩ := normalises_module m.span hmodule hscannable
      exact ⟨hwellFormed, hdeeper hnests⟩
    · cases h

/-- Assumes: a source is read as a module under some limit, or without one. Under the same limit the
canonical text of the module is read, as a module that is the same up to spans, and whose canonical
text is the same. -/
theorem stable_of_read (file again source : String) (limit : Option NestingLimit) (m : TypeModule)
    (h : TypeModule.read file limit source = .ok m) :
    ∃ found, TypeModule.read again limit (m.canonicalText TypeModule.standardIndent) = .ok found ∧
      found.withoutSpans = m.withoutSpans ∧
      found.canonicalText TypeModule.standardIndent =
        m.canonicalText TypeModule.standardIndent := by
  obtain ⟨hwellFormed, hnests⟩ := wellFormed_of_read h
  have hindent : ∀ c ∈ TypeModule.standardIndent.toList, isGapChar c = true :=
    List.all_eq_true.mp (by decide)
  obtain ⟨found, hfound, hsame⟩ := read_canonicalText hwellFormed hindent hnests again
  refine ⟨found, hfound, hsame, ?_⟩
  rw [← TypeModule.canonicalText_withoutSpans, hsame, TypeModule.canonicalText_withoutSpans]

theorem stable_of_read_oneOfEach :
    ∃ m, TypeModule.read "" (some (.ofInt 4)) (oneOfEach.canonicalText "\t") = .ok m ∧
      ∃ found, TypeModule.read "" (some (.ofInt 4)) (m.canonicalText TypeModule.standardIndent) =
          .ok found ∧
        found.withoutSpans = m.withoutSpans ∧
        found.canonicalText TypeModule.standardIndent =
          m.canonicalText TypeModule.standardIndent := by
  have hindent : ∀ c ∈ "\t".toList, isGapChar c = true := List.all_eq_true.mp (by decide)
  have hnests : Lexeme.Nests (some (.ofInt 4)) 0 oneOfEach.lexemes := by rfl
  obtain ⟨m, hm, -⟩ := read_canonicalText (m := oneOfEach) (by decide) hindent hnests ""
  exact ⟨m, hm, stable_of_read "" "" _ (some (.ofInt 4)) m hm⟩

end WatTypes
