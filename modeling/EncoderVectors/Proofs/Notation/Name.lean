import EncoderVectors.Catalog.Entry

/-!
# Characters of names

Every name that stands at the head of a call or of an assembly line is spelled with lowercase letters,
digits and one joining character: the underscore in a call, the dot in assembly. So a name holds none
of the characters that end it.
-/

set_option autoImplicit false

namespace EncoderVectors

namespace Mnemonic

/-- A name holds nothing but part characters and underscores. -/
theorem name_chars (m : Mnemonic) :
    ∀ c ∈ m.name.toList, isPartChar c = true ∨ c = '_' := by
  have sound := m.sound
  unfold fault? at sound
  split at sound
  · exact absurd sound (by simp)
  · next c rest chars =>
      rw [chars]
      split at sound
      · exact absurd sound (by simp)
      · split at sound
        · exact absurd sound (by simp)
        · -- the third test is the one for the alphabet; what comes after it is not needed
          next alphabet =>
            intro d hd
            simp only [Bool.not_eq_true', Bool.not_eq_false, List.all_eq_true] at alphabet
            simpa using alphabet d hd

/-- A name opens with a lowercase letter. -/
theorem exists_first (m : Mnemonic) : ∃ c rest, m.name.toList = c :: rest ∧ c.isLower = true := by
  have sound := m.sound
  unfold fault? at sound
  split at sound
  · exact absurd sound (by simp)
  · next c rest chars =>
      refine ⟨c, rest, chars, ?_⟩
      split at sound
      · exact absurd sound (by simp)
      · next first => simpa using first

/-- The name of a call is the name itself, or the name used instead of a reserved one. -/
theorem callName_eq_or_mem (m : Mnemonic) :
    m.callName = m.name ∨ m.callName ∈ reserved.map Prod.snd := by
  unfold callName
  cases found : reserved.lookup m.name with
  | none => exact Or.inl rfl
  | some other =>
      right
      obtain ⟨before, after, split, -⟩ := List.lookup_eq_some_iff.mp found
      simp [split]

theorem callName_chars (m : Mnemonic) :
    ∀ c ∈ m.callName.toList, isPartChar c = true ∨ c = '_' := by
  rcases callName_eq_or_mem m with same | other
  · rw [same]
    exact name_chars m
  · have table : ∀ text ∈ reserved.map Prod.snd,
        (text.toList.all fun c => isPartChar c || c == '_') = true := by
      decide
    intro c hc
    simpa using List.all_eq_true.mp (table _ other) c hc

theorem assemblyName_chars (m : Mnemonic) :
    ∀ c ∈ m.assemblyName.toList, isPartChar c = true ∨ c = '.' := by
  intro c hc
  simp only [assemblyName, String.toList_ofList, List.mem_map] at hc
  obtain ⟨d, hd, rfl⟩ := hc
  by_cases joint : d = '_'
  · simp [joint]
  · rw [if_neg joint]
    exact (name_chars m d hd).imp_right fun h => absurd h joint

end Mnemonic

namespace Entry

/-- No name of a call holds a character that no part may hold, the underscore aside. -/
theorem not_mem_callName (e : Entry) {c : Char} (part : Mnemonic.isPartChar c = false)
    (joint : c ≠ '_') : c ∉ e.callName.toList := by
  intro hc
  rcases e.mnemonic.callName_chars c hc with h | h
  · exact absurd h (by simp [part])
  · exact joint h

theorem assemblyName_chars (e : Entry) :
    ∀ c ∈ e.assemblyName.toList, Mnemonic.isPartChar c = true ∨ c = '.' := by
  unfold assemblyName
  split
  · next ordering _ =>
      have suffix : (("." ++ ordering.suffix).toList.all
          fun c => Mnemonic.isPartChar c || c == '.') = true := by
        cases ordering <;> decide
      intro c hc
      rw [String.append_assoc, String.toList_append, List.mem_append] at hc
      rcases hc with hc | hc
      · exact e.mnemonic.assemblyName_chars c hc
      · simpa using List.all_eq_true.mp suffix c hc
  · exact e.mnemonic.assemblyName_chars

/-- No name in assembly holds a character that no part may hold, the dot aside. -/
theorem not_mem_assemblyName (e : Entry) {c : Char} (part : Mnemonic.isPartChar c = false)
    (joint : c ≠ '.') : c ∉ e.assemblyName.toList := by
  intro hc
  rcases e.assemblyName_chars c hc with h | h
  · exact absurd h (by simp [part])
  · exact joint h

end Entry

end EncoderVectors
