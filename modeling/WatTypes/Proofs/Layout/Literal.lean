import WatTypes.Proofs.Lexical.Tokenized

/-!
# Texts as string literals

Between its quotation marks the literal of a text holds visible characters alone
(`isVisible_literalChar`), and each quotation mark among them is escaped by the backslash in front
of it (`isEscaped_of_flatMap_literalChar`). So the literal stands on one line and ends at its last
mark, whatever comes behind: it is read as one token of the text, and reading goes on right behind
it (`read_stringLiteral`).
-/

set_option autoImplicit false
set_option relaxedAutoImplicit false

namespace WatTypes

/-- Along a line the columns count the characters. -/
theorem Position.afterAll_of_notMem {taken : List Char} (h : '\n' ∉ taken) (here : Position) :
    here.afterAll taken = ⟨here.line, here.column + taken.length⟩ := by
  induction taken generalizing here with
  | nil => simp
  | cons c rest ih =>
    rw [List.mem_cons, not_or] at h
    obtain ⟨hc, hrest⟩ := h
    rw [afterAll_cons, ih hrest, after, if_neg (Ne.symm hc), List.length_cons]
    simp only [mk.injEq, true_and]
    omega

namespace Lexeme

/-! ### Characters of a literal -/

/-- What a character is written as is neither a control character nor the delete character. -/
theorem isVisible_literalChar {c d : Char} (h : d ∈ literalChar c) :
    0x20 ≤ d.toNat ∧ d.toNat ≠ 0x7f := by
  have hbackslash : 0x20 ≤ '\\'.toNat ∧ '\\'.toNat ≠ 0x7f := by decide
  unfold literalChar at h
  split at h
  · rename_i hc
    rcases List.mem_pair.mp h with rfl | rfl
    · exact hbackslash
    · rcases hc with rfl | rfl <;> decide
  split at h
  · rcases List.mem_pair.mp h with rfl | rfl <;> decide
  split at h
  · rcases List.mem_pair.mp h with rfl | rfl <;> decide
  split at h
  · rcases List.mem_cons.mp h with rfl | hdigit
    · exact hbackslash
    · have hall : ∀ digit : Fin 16, 0x20 ≤ (Text.hexDigit digit).toNat ∧
          (Text.hexDigit digit).toNat ≠ 0x7f := by decide
      obtain ⟨digit, rfl⟩ := Text.exists_hexDigit_of_mem hdigit
      exact hall digit
  · obtain rfl := List.mem_singleton.mp h
    omega

/-- Whether a character is escaped, by the characters in front of it, the nearest first: a backslash
that is not escaped itself stands right in front of it. -/
def isEscaped : List Char → Bool
  | '\\' :: others => !isEscaped others
  | _ => false

theorem isEscaped_of_ne {c : Char} (h : c ≠ '\\') (others : List Char) :
    isEscaped (c :: others) = false := by
  rw [isEscaped]
  exact fun _ hcons ↦ h (List.cons.inj hcons).1

/-- Behind what escapes nothing, a character is escaped by what comes since. -/
theorem isEscaped_append {front : List Char} (h : isEscaped front = false) (since : List Char) :
    isEscaped (since ++ front) = isEscaped since := by
  induction since with
  | nil => exact h
  | cons c others ih =>
    by_cases hc : c = '\\'
    · subst hc
      rw [List.cons_append, isEscaped, isEscaped, ih]
    · rw [List.cons_append, isEscaped_of_ne hc, isEscaped_of_ne hc]

/-- What a character is written as escapes nothing behind it. -/
theorem isEscaped_reverse_literalChar (c : Char) : isEscaped (literalChar c).reverse = false := by
  unfold literalChar
  split
  · rename_i hc
    rcases hc with rfl | rfl <;> rfl
  rename_i hc
  split
  · rfl
  split
  · rfl
  split
  · have hdigit : ∀ digit : Fin 16, Text.hexDigit digit ≠ '\\' := by decide
    have hlast := hdigit ⟨c.toNat % 16, Nat.mod_lt _ (by decide)⟩
    rw [Text.hexDigits, List.reverse_cons, List.reverse_append, List.reverse_singleton,
      List.singleton_append, List.cons_append, isEscaped_of_ne hlast]
  · exact isEscaped_of_ne (fun hbackslash ↦ hc (.inr hbackslash)) []

/-- A quotation mark is written for nothing but a quotation mark. -/
theorem eq_of_mem_literalChar {c : Char} (h : '"' ∈ literalChar c) : c = '"' := by
  by_contra hne
  unfold literalChar at h
  split at h
  · rename_i hc
    obtain rfl := hc.resolve_left hne
    exact absurd h (by decide)
  split at h
  · exact absurd h (by decide)
  split at h
  · exact absurd h (by decide)
  split at h
  · have hall : ∀ digit : Fin 16, '"' ≠ Text.hexDigit digit := by decide
    obtain ⟨digit, hdigit⟩ :=
      Text.exists_hexDigit_of_mem ((List.mem_cons.mp h).resolve_left (by decide))
    exact hall digit hdigit
  · exact hne (List.mem_singleton.mp h).symm

/-- What is written for a quotation mark has nothing but a backslash in front of it. -/
theorem eq_backslash_of_literalChar {c : Char} {front behind : List Char}
    (h : literalChar c = front ++ '"' :: behind) : front = ['\\'] := by
  obtain rfl := eq_of_mem_literalChar (h ▸ List.mem_append_cons_self)
  have hpair : ['\\', '"'] = front ++ '"' :: behind := h
  rcases front with _ | ⟨first, _ | ⟨second, others⟩⟩
  · cases hpair
  · cases hpair
    rfl
  · simp at hpair

/-- Each quotation mark among what characters are written as is escaped. -/
theorem isEscaped_of_flatMap_literalChar {text front behind : List Char}
    (h : text.flatMap literalChar = front ++ '"' :: behind) : isEscaped front.reverse = true := by
  induction text generalizing front with
  | nil => simp at h
  | cons c rest ih =>
    rw [List.flatMap_cons] at h
    rcases List.append_eq_append_iff.mp h with ⟨since, rfl, hrest⟩ | ⟨within, hfirst, hrest⟩
    · rw [List.reverse_append, isEscaped_append (isEscaped_reverse_literalChar c)]
      exact ih hrest
    · cases within with
      | nil =>
        have hnone := @ih [] hrest.symm
        cases hnone
      | cons mark others =>
        obtain ⟨rfl, -⟩ := List.cons.inj hrest
        rw [eq_backslash_of_literalChar hfirst]
        rfl

/-! ### Literals as a whole -/

theorem toList_stringLiteral (text : String) :
    (stringLiteral text).toList = '"' :: text.toList.flatMap literalChar ++ ['"'] :=
  String.toList_ofList

/-- In a literal there are no control characters, nor the delete character. -/
theorem isVisible_stringLiteral {text : String} {c : Char} (h : c ∈ (stringLiteral text).toList) :
    0x20 ≤ c.toNat ∧ c.toNat ≠ 0x7f := by
  have hquote : 0x20 ≤ '"'.toNat ∧ '"'.toNat ≠ 0x7f := by decide
  rw [toList_stringLiteral, List.mem_append, List.mem_cons, List.mem_singleton] at h
  rcases h with (rfl | hinside) | rfl
  · exact hquote
  · obtain ⟨_, -, hpiece⟩ := List.mem_flatMap.mp hinside
    exact isVisible_literalChar hpiece
  · exact hquote

/-- So a literal ends on the line that it starts on. -/
theorem afterAll_stringLiteral (here : Position) (text : String) :
    here.afterAll (stringLiteral text).toList =
      ⟨here.line, here.column + (stringLiteral text).length⟩ := by
  have hfeed : '\n' ∉ (stringLiteral text).toList := fun hmem ↦
    absurd (isVisible_stringLiteral hmem).1 (by decide)
  rw [Position.afterAll_of_notMem hfeed, String.length_toList]

/-- What stands where a literal does is its text, and no fault. -/
theorem stretch_stringLiteral (file : String) (here : Position) (text : String)
    (rest : List Char) :
    Stretch.read file ⟨here, (stringLiteral text).toList ++ rest⟩ '"'
        (text.toList.flatMap literalChar ++ '"' :: rest) =
      (.events [.token ⟨.string text, .upTo file here (here.afterAll (stringLiteral text).toList)⟩],
        ⟨here.afterAll (stringLiteral text).toList, rest⟩) := by
  obtain ⟨stop, hstop, hread⟩ := @Stretch.read_literal file
    ⟨here, (stringLiteral text).toList ++ rest⟩ _ rest text (isLiteralBody_literalChar text)
  have hwhole : '"' :: (text.toList.flatMap literalChar ++ '"' :: rest) =
      (stringLiteral text).toList ++ stop.rest := by
    rw [hstop, toList_stringLiteral]
    simp
  obtain ⟨hpast, -⟩ := Stretch.eq_past_of_read hread hwhole
  rw [hread, hpast, hstop]
  rfl

/-- The literal of a text, wherever it stands and whatever comes behind it, is read as one token of
the text, with no fault, up to its last quotation mark on the same line, and reading goes on right
behind it, just as deep. In the literal there are no control characters, nor the delete character,
and all quotation marks between the first and the last are escaped by a backslash. -/
theorem read_stringLiteral (file : String) (limit : Option NestingLimit) (depth : Nat)
    (here : Position) (text : String) (rest : List Char) :
    ∃ (inside : List Char) (stop : Position),
      (stringLiteral text).toList = '"' :: inside ++ ['"'] ∧
      stop = ⟨here.line, here.column + (stringLiteral text).length⟩ ∧
      Stretch.read file ⟨here, (stringLiteral text).toList ++ rest⟩ '"' (inside ++ '"' :: rest) =
        (.events [.token ⟨.string text, .upTo file here stop⟩], ⟨stop, rest⟩) ∧
      Scan.readFrom file limit depth ⟨here, (stringLiteral text).toList ++ rest⟩ =
        (Scan.readFrom file limit depth ⟨stop, rest⟩).prepend
          [.token ⟨.string text, .upTo file here stop⟩] ∧
      (∀ c ∈ (stringLiteral text).toList, 0x20 ≤ c.toNat ∧ c.toNat ≠ 0x7f) ∧
      ∀ front behind, inside = front ++ '"' :: behind → isEscaped front.reverse = true := by
  have hpast : depthPast? limit depth (.string text) = some depth := rfl
  exact ⟨_, _, toList_stringLiteral text, afterAll_stringLiteral here text,
    stretch_stringLiteral file here text rest,
    readFrom_past_of_spells (spells_string text) trivial hpast here,
    fun _ ↦ isVisible_stringLiteral, fun _ _ ↦ isEscaped_of_flatMap_literalChar⟩

/-- A backslash, a quotation mark, and a control character in front of a letter that is a digit of
escapes. -/
def needsEscapes : String := "\\\"\x01b"

/-- The escapes stay apart from the letter, and what stands behind the literal is left. -/
theorem read_stringLiteral_needsEscapes :
    (stringLiteral needsEscapes).toList = '"' :: "\\\\\\\"\\01b".toList ++ ['"'] ∧
      Stretch.read "a.wat" ⟨.first, (stringLiteral needsEscapes).toList ++ ['"', 'b']⟩ '"'
          ("\\\\\\\"\\01b".toList ++ ['"', '"', 'b']) =
        (.events [.token ⟨.string needsEscapes, .upTo "a.wat" .first ⟨1, 11⟩⟩],
          ⟨⟨1, 11⟩, ['"', 'b']⟩) ∧
      isEscaped ['\\', '\\', '\\'] = true := by
  obtain ⟨inside, stop, hliteral, hstop, hread, -, -, hescaped⟩ :=
    read_stringLiteral "a.wat" none 0 .first needsEscapes ['"', 'b']
  have hwritten : (stringLiteral needsEscapes).toList =
      '"' :: "\\\\\\\"\\01b".toList ++ ['"'] := by decide
  obtain rfl : inside = "\\\\\\\"\\01b".toList :=
    (List.cons.inj (List.append_cancel_right (hliteral.symm.trans hwritten))).2
  obtain rfl : stop = ⟨1, 11⟩ := hstop.trans (by decide)
  exact ⟨hliteral, hread, hescaped ['\\', '\\', '\\'] ['\\', '0', '1', 'b'] (by decide)⟩

end Lexeme

end WatTypes
