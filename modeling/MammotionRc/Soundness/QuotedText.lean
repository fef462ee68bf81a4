import MammotionRc.Server.Persist

/-! # What `_toml_quote` writes

The reader reads every character but one from what the writer makes of it: the control character DEL is not
escaped, and the line it is on is refused.
-/

namespace MammotionRc.Server

open Machine

variable {c : Char} {s label key : List Char} {v : PyValue} {q : PyStr}

/-- A text that the writer's quotes hold. -/
def Clean (s : List Char) : Prop := '\x7F' ∉ s

instance (s : List Char) : Decidable (Clean s) := inferInstanceAs (Decidable (¬ _))

theorem escapeChar_reads (other : c ≠ '\x7F') : Toml.Reads (escapeChar c) c := by
  rw [escapeChar]
  split_ifs with backslash quote lf cr tab control
  · subst backslash
    exact Toml.reads_escape (by decide) (by decide) (by decide)
  · subst quote
    exact Toml.reads_escape (by decide) (by decide) (by decide)
  · subst lf
    exact Toml.reads_escape (by decide) (by decide) (by decide)
  · subst cr
    exact Toml.reads_escape (by decide) (by decide) (by decide)
  · subst tab
    exact Toml.reads_escape (by decide) (by decide) (by decide)
  · exact Toml.reads_word (by omega)
  · refine Toml.reads_self ?_ quote backslash
    rw [Toml.isIllegal, decide_eq_false_iff_not]
    rintro ⟨_, low | del⟩
    · exact control low
    · exact other (Char.toNat_inj.mp del)

theorem escapeChar_each (c : Char) :
    Toml.Reads (escapeChar c) c ∨ Toml.isIllegal c ∧ escapeChar c = [c] := by
  by_cases del : c = '\x7F'
  · subst del
    exact .inr ⟨by decide, by decide⟩
  · exact .inl (escapeChar_reads del)

/-- Neither end of a line is written as it is. -/
def OneLine (line : List Char) : Prop := '\n' ∉ line ∧ '\r' ∉ line

instance (line : List Char) : Decidable (OneLine line) := inferInstanceAs (Decidable (_ ∧ _))

theorem oneLine_append {first second : List Char} (left : OneLine first) (right : OneLine second) :
    OneLine (first ++ second) := by
  simp only [OneLine, List.mem_append, not_or]
  exact ⟨⟨left.1, right.1⟩, left.2, right.2⟩

theorem oneLine_escapeChar (c : Char) : OneLine (escapeChar c) := by
  rw [escapeChar]
  split_ifs with backslash quote lf cr tab control
  · decide
  · decide
  · decide
  · decide
  · decide
  · have word : ∀ n < 0x20, OneLine ('\\' :: 'u' :: Hex.word n) := by decide
    exact word _ control
  · exact ⟨fun inside => lf (List.mem_singleton.mp inside).symm, fun inside => cr (List.mem_singleton.mp inside).symm⟩

/-- A quoted text is on one line if each character is. -/
theorem oneLine_quote {escape : Char → List Char} (each : ∀ c ∈ s, OneLine (escape c)) :
    OneLine (Toml.quote escape s) := by
  have body : OneLine (s.flatMap escape) := by
    simp only [OneLine, List.mem_flatMap, not_exists, not_and]
    exact ⟨fun c inside => (each c inside).1, fun c inside => (each c inside).2⟩
  have quotes : OneLine ['"'] := by decide
  exact oneLine_append (oneLine_append quotes body) quotes

theorem ofChars_flatMap_escape (s : List Char) :
    (PyStr.ofChars s).flatMap escape = PyStr.ofChars (s.flatMap escapeChar) := by
  rw [PyStr.ofChars, PyStr.ofChars, List.flatMap_map, List.map_flatMap]
  rfl

/-- The quoter writes the text of a value. -/
theorem tomlQuote_of_text? (text : v.text? = some s) :
    tomlQuote v = some (PyStr.ofChars (Toml.quote escapeChar s)) := by
  obtain ⟨chars, loop, same⟩ := Option.bind_eq_some_iff.mp text
  rw [PyStr.chars?_eq_some_iff] at same
  rw [tomlQuote, loop, Option.map_some, same, ofChars_flatMap_escape, Toml.quote]
  simp [PyStr.lit, PyStr.ofChars]

/-- The text of a value that is only written if it is true. -/
def optionalText? (v : PyValue) : Option (Option (List Char)) :=
  if v.truthy then v.text?.map some else some none

theorem encodable_of_flatMap_escape {chars : PyStr} (written : PyStr.Encodable (chars.flatMap escape)) :
    chars.Encodable := by
  intro ch inside
  cases ch with
  | char c => exact ⟨c, rfl⟩
  | surrogate i => exact written _ (List.mem_flatMap.mpr ⟨_, inside, List.mem_singleton_self _⟩)

/-- What can be quoted and encoded has a text. -/
theorem text?_of_tomlQuote (quoted : tomlQuote v = some q) (written : q.Encodable) : ∃ s, v.text? = some s := by
  obtain ⟨chars, loop, rfl⟩ := Option.map_eq_some_iff.mp quoted
  rw [PyStr.encodable_append, PyStr.encodable_append] at written
  obtain ⟨s, same⟩ := PyStr.encodable_iff.mp (encodable_of_flatMap_escape written.1.2)
  exact ⟨s, by rw [PyValue.text?, loop, Option.bind_some, same]⟩

/-- How a line with a key starts: the key is padded, and followed by `= `. -/
structure Label (label key : List Char) : Prop where
  bare : ∀ c ∈ key, Toml.isBareKeyChar c = true
  nonempty : key ≠ []
  padded : ∃ pad : ℕ, label = key ++ List.replicate pad ' ' ++ ['=', ' ']

theorem statement_label {α : Type*} (is : Label label key) (text : List Char) :
    Toml.statement (α := α) (label ++ text) = Toml.pair key (' ' :: text) := by
  obtain ⟨pad, rfl⟩ := is.padded
  rw [List.append_assoc, List.cons_append, List.singleton_append]
  refine Toml.statement_pair is.bare is.nonempty (fun c inside => ?_) _
  rw [List.eq_of_mem_replicate inside]
  rfl

theorem statement_of_clean {α : Type*} (is : Label label key) (clean : Clean s) :
    Toml.statement (α := α) (label ++ Toml.quote escapeChar s) = .pair key (.string s) := by
  rw [statement_label is, Toml.pair_quote_of_reads]
  exact fun c inside => escapeChar_reads fun del => clean (del ▸ inside)

theorem statement_of_not_clean {α : Type*} (is : Label label key) (dirty : ¬ Clean s) :
    Toml.statement (α := α) (label ++ Toml.quote escapeChar s) = .malformed := by
  rw [statement_label is, Toml.pair_quote_of_illegal fun c _ => escapeChar_each c]
  exact ⟨'\x7F', not_not.mp dirty, by decide, by decide⟩

/-- The reader takes no line with a quoted text for one of another form. -/
theorem statement_ne_other {α : Type*} (is : Label label key) (s : List Char) :
    Toml.statement (α := α) (label ++ Toml.quote escapeChar s) ≠ .other := by
  by_cases clean : Clean s
  · rw [statement_of_clean is clean]
    exact nofun
  · rw [statement_of_not_clean is clean]
    exact nofun

end MammotionRc.Server
