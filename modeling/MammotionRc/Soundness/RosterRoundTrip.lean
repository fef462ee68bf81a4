import MammotionRc.Soundness.QuotedText

/-! # The roster file

What `save_mowers` writes is read back row by row, unless a string has a character that is written as it is but must
not be in a file: then the server no longer starts.
-/

namespace MammotionRc.Server

open Machine

/-- The texts of a row that can be written. -/
structure RowText where
  name : List Char
  nickname : Option (List Char)
  hc33Host : List Char
  hc33Port : ℤ
  digits : List Char
  iotId : Option (List Char)

structure Row.HasText (m : Row) (t : RowText) : Prop where
  name : m.name.text? = some t.name
  nickname : optionalText? m.nickname = some t.nickname
  hc33Host : m.hc33Host.text? = some t.hc33Host
  port : m.hc33Port = t.hc33Port
  digits : PyInt.str? t.hc33Port = some t.digits
  iotId : optionalText? m.iotId = some t.iotId

namespace RowText

def optionalLine (label : String) : Option (List Char) → List (List Char)
  | some s => [label.toList ++ Toml.quote escapeChar s]
  | none => []

/-- The lines with the keys. -/
def keyLines (t : RowText) : List (List Char) :=
  ["name      = ".toList ++ Toml.quote escapeChar t.name] ++ optionalLine "nickname  = " t.nickname ++
    ["hc33_host = ".toList ++ Toml.quote escapeChar t.hc33Host, "hc33_port = ".toList ++ t.digits] ++
    optionalLine "iot_id    = " t.iotId

def lines (t : RowText) : List (List Char) := "[[mower]]".toList :: t.keyLines ++ [[]]

def optionalEntry (key : String) : Option (List Char) → List (List Char × Toml.Value PyValue)
  | some s => [(key.toList, .string s)]
  | none => []

/-- What the reader finds on these lines. -/
def entries (t : RowText) : List (List Char × Toml.Value PyValue) :=
  [("name".toList, .string t.name)] ++ optionalEntry "nickname" t.nickname ++
    [("hc33_host".toList, .string t.hc33Host), ("hc33_port".toList, .integer t.hc33Port)] ++
    optionalEntry "iot_id" t.iotId

def optionalValue : Option (List Char) → PyValue
  | some s => (PyValue.str (PyStr.ofChars s)).or .none
  | none => .none

/-- The row that is made of them. -/
def row (t : RowText) : Row where
  name := .str (PyStr.ofChars t.name)
  nickname := optionalValue t.nickname
  hc33Host := .str (PyStr.ofChars t.hc33Host)
  hc33Port := t.hc33Port
  iotId := optionalValue t.iotId

/-- None of the strings has a DEL. -/
structure Clean (t : RowText) : Prop where
  name : Server.Clean t.name
  nickname : ∀ s ∈ t.nickname, Server.Clean s
  hc33Host : Server.Clean t.hc33Host
  iotId : ∀ s ∈ t.iotId, Server.Clean s

end RowText

/-- The lines of the file. -/
def rosterLines (texts : List RowText) : List (List Char) :=
  rosterHeader.map String.toList ++ texts.flatMap RowText.lines

def rosterText (texts : List RowText) : List Char := ['\n'].intercalate (rosterLines texts)

def rosterFile (newline : PyText.Newline) (texts : List RowText) : List UInt8 :=
  Utf8.encode (newline.translate (rosterText texts))

variable {beyond : TomlRest} {newline : PyText.Newline} {m : Row} {t : RowText} {rows : List Row}
  {texts : List RowText} {v : PyValue} {s : Option (List Char)} {lines : List PyStr} {bytes : List UInt8}

theorem ofChars_intercalate (sep : List Char) (lines : List (List Char)) :
    (PyStr.ofChars sep).intercalate (lines.map PyStr.ofChars) = PyStr.ofChars (sep.intercalate lines) := by
  induction lines with
  | nil => rfl
  | cons line lines ih =>
    cases lines with
    | nil => simp
    | cons next lines =>
      rw [List.map_cons, List.map_cons, List.intercalate_cons_cons, ← List.map_cons, ih, List.intercalate_cons_cons,
        PyStr.ofChars_append, PyStr.ofChars_append]

theorem optionalLine_of_text (label : String) (text : optionalText? v = some s) :
    optionalLine label v = some ((RowText.optionalLine label s).map PyStr.ofChars) := by
  rw [optionalText?] at text
  rw [optionalLine]
  split_ifs at text ⊢
  · obtain ⟨chars, is, rfl⟩ := Option.map_eq_some_iff.mp text
    rw [tomlQuote_of_text? is]
    simp [RowText.optionalLine, PyStr.lit]
  · cases text
    rfl

/-- The lines of a row are those of its texts. -/
theorem mowerLines_of_text (text : m.HasText t) : mowerLines m = some (t.lines.map PyStr.ofChars) := by
  rw [mowerLines, tomlQuote_of_text? text.name, optionalLine_of_text _ text.nickname, tomlQuote_of_text? text.hc33Host,
    optionalLine_of_text _ text.iotId, text.port, text.digits]
  simp [RowText.lines, RowText.keyLines, PyStr.lit, PyStr.ofChars]

theorem mapM_mowerLines (all : List.Forall₂ Row.HasText rows texts) :
    rows.mapM mowerLines = some (texts.map fun t => t.lines.map PyStr.ofChars) := by
  induction all with
  | nil => rfl
  | cons text _ ih =>
    rw [List.mapM_cons, mowerLines_of_text text, ih]
    rfl

/-- A roster with texts is written. -/
theorem saveMowers_of_texts (all : List.Forall₂ Row.HasText rows texts) :
    saveMowers newline rows = some (rosterFile newline texts) := by
  have whole : rosterHeader.map PyStr.lit ++ (texts.map fun t => t.lines.map PyStr.ofChars).flatten =
      (rosterLines texts).map PyStr.ofChars := by
    rw [rosterLines, List.map_append, List.map_map, List.map_flatMap, List.flatMap_def]
    rfl
  rw [saveMowers, mapM_mowerLines all, Option.bind_eq_bind, Option.bind_some, whole, writeText, PyStr.lit,
    ofChars_intercalate, PyStr.chars?_ofChars]
  rfl

/-! ## Reading -/

theorem label_name : Label "name      = ".toList "name".toList :=
  ⟨PyText.forall_of_all (by decide), by decide, 6, by decide⟩

theorem label_nickname : Label "nickname  = ".toList "nickname".toList :=
  ⟨PyText.forall_of_all (by decide), by decide, 2, by decide⟩

theorem label_hc33Host : Label "hc33_host = ".toList "hc33_host".toList :=
  ⟨PyText.forall_of_all (by decide), by decide, 1, by decide⟩

theorem label_hc33Port : Label "hc33_port = ".toList "hc33_port".toList :=
  ⟨PyText.forall_of_all (by decide), by decide, 1, by decide⟩

theorem label_iotId : Label "iot_id    = ".toList "iot_id".toList :=
  ⟨PyText.forall_of_all (by decide), by decide, 4, by decide⟩

theorem statement_port (digits : PyInt.str? t.hc33Port = some t.digits) :
    Toml.statement (α := PyValue) ("hc33_port = ".toList ++ t.digits) =
      .pair "hc33_port".toList (.integer t.hc33Port) := by
  rw [statement_label label_hc33Port, Toml.pair_int digits]

theorem statements_optional {label key : String} (is : Label label.toList key.toList) {s : Option (List Char)}
    (clean : ∀ text ∈ s, Clean text) :
    (RowText.optionalLine label s).map (Toml.statement (α := PyValue)) =
      (RowText.optionalEntry key s).map fun entry => .pair entry.1 entry.2 := by
  cases s with
  | none => rfl
  | some text => simp [RowText.optionalLine, RowText.optionalEntry, statement_of_clean is (clean text rfl)]

/-- The lines of a row without a DEL. -/
theorem statements_of_clean (digits : PyInt.str? t.hc33Port = some t.digits) (clean : t.Clean) :
    t.keyLines.map Toml.statement = t.entries.map fun entry => .pair entry.1 entry.2 := by
  simp only [RowText.keyLines, RowText.entries, List.map_append, List.map_cons, List.map_nil,
    statement_of_clean label_name clean.name, statement_of_clean label_hc33Host clean.hc33Host, statement_port digits,
    statements_optional label_nickname clean.nickname, statements_optional label_iotId clean.iotId]

theorem entries_distinct (t : RowText) : (t.entries.map Prod.fst).Nodup := by
  rw [RowText.entries]
  cases t.nickname <;> cases t.iotId <;>
    simp only [RowText.optionalEntry, List.cons_append, List.nil_append, List.append_nil, List.map_cons,
      List.map_nil] <;> decide

theorem readLines_rows (rows : List (Toml.Table PyValue))
    (all : ∀ t ∈ texts, PyInt.str? t.hc33Port = some t.digits ∧ t.Clean) :
    Toml.readLines beyond (.array "mower".toList rows) (texts.flatMap RowText.lines) =
      some (Toml.Document.array "mower".toList (rows ++ texts.map fun t => .ofPairs t.entries)).root := by
  induction texts generalizing rows with
  | nil =>
    rw [List.map_nil, List.append_nil]
    rfl
  | cons t texts ih =>
    obtain ⟨digits, clean⟩ := all t List.mem_cons_self
    have blank : Toml.statement (α := PyValue) [] = .nothing := rfl
    rw [List.flatMap_cons, RowText.lines, List.append_assoc, List.singleton_append,
      Toml.readLines_table (by rfl) (statements_of_clean digits clean) (entries_distinct t),
      Toml.readLines_cons blank nofun, Toml.Document.step, Option.bind_some,
      ih _ fun t inside => all t (List.mem_cons_of_mem _ inside), List.map_cons, List.append_assoc,
      List.singleton_append]

/-- The comments and the empty line at the start of the file. -/
theorem readLines_header {lines : List (List Char)} {doc : Toml.Document PyValue} :
    Toml.readLines beyond doc (rosterHeader.map String.toList ++ lines) = Toml.readLines beyond doc lines := by
  have nothing : ∀ line ∈ rosterHeader.map String.toList, Toml.statement (α := PyValue) line = .nothing := by
    simp only [rosterHeader, List.map_cons, List.map_nil, List.forall_mem_cons]
    exact ⟨Toml.statement_comment (by simp) (by simp [Toml.isIllegal]),
      Toml.statement_comment (by simp) (by simp [Toml.isIllegal]), rfl, nofun⟩
  exact Toml.readLines_nothing nothing

theorem oneLine_optional {label : String} (is : OneLine label.toList) (s : Option (List Char)) :
    ∀ line ∈ RowText.optionalLine label s, OneLine line := by
  cases s with
  | none => exact nofun
  | some text =>
    intro line inside
    rw [List.mem_singleton.mp inside]
    exact oneLine_append is (oneLine_quote fun c _ => oneLine_escapeChar c)

theorem oneLine_digits {n : ℤ} {digits : List Char} (written : PyInt.str? n = some digits) : OneLine digits := by
  have all : ∀ c ∈ digits, c = '-' ∨ c.isDigit = true := by
    simp only [PyInt.str?] at written
    split_ifs at written <;> cases written
    · intro c inside
      exact (List.mem_cons.mp inside).imp_right (Nat.isDigit_of_mem_toDigits (by decide) (by decide))
    · exact fun c inside => .inr (Nat.isDigit_of_mem_toDigits (by decide) (by decide) inside)
  exact ⟨fun inside => absurd (all _ inside) (by decide), fun inside => absurd (all _ inside) (by decide)⟩

theorem oneLine_lines (digits : PyInt.str? t.hc33Port = some t.digits) : ∀ line ∈ t.lines, OneLine line := by
  simp only [RowText.lines, RowText.keyLines, List.cons_append, List.append_assoc, List.forall_mem_cons,
    List.forall_mem_append, List.nil_append]
  have quoted : ∀ s, OneLine (Toml.quote escapeChar s) := fun s => oneLine_quote fun c _ => oneLine_escapeChar c
  exact ⟨by decide, oneLine_append (by decide) (quoted _), oneLine_optional (by decide) _,
    oneLine_append (by decide) (quoted _), oneLine_append (by decide) (oneLine_digits digits),
    oneLine_optional (by decide) _, by decide⟩

theorem oneLine_rosterLines (all : ∀ t ∈ texts, PyInt.str? t.hc33Port = some t.digits) :
    ∀ line ∈ rosterLines texts, OneLine line := by
  rw [rosterLines, List.forall_mem_append]
  refine ⟨by simp [rosterHeader, OneLine], fun line inside => ?_⟩
  obtain ⟨t, mem, inside⟩ := List.mem_flatMap.mp inside
  exact oneLine_lines (all t mem) line inside

theorem mem_intercalate {α : Type*} {x : α} {sep : List α} {lines : List (List α)}
    (inside : x ∈ sep.intercalate lines) : x ∈ sep ∨ ∃ line ∈ lines, x ∈ line := by
  induction lines with
  | nil => cases inside
  | cons line lines ih =>
    cases lines with
    | nil => exact .inr ⟨line, List.mem_cons_self, by simpa using inside⟩
    | cons next lines =>
      rw [List.intercalate_cons_cons, List.append_assoc, List.mem_append, List.mem_append] at inside
      rcases inside with here | between | later
      · exact .inr ⟨line, List.mem_cons_self, here⟩
      · exact .inl between
      · rcases ih later with between | ⟨other, mem, inside⟩
        · exact .inl between
        · exact .inr ⟨other, List.mem_cons_of_mem _ mem, inside⟩

/-- The file is read line by line. -/
theorem load_rosterFile (beyond : TomlRest) (newline : PyText.Newline)
    (all : ∀ t ∈ texts, PyInt.str? t.hc33Port = some t.digits) :
    Toml.load beyond (rosterFile newline texts) =
      Toml.readLines beyond ⟨.empty, none⟩ (texts.flatMap RowText.lines) := by
  have oneLine := oneLine_rosterLines all
  have clean : '\r' ∉ rosterText texts := by
    intro inside
    rcases mem_intercalate inside with sep | ⟨line, mem, inside⟩
    · exact absurd sep (by decide)
    · exact (oneLine line mem).2 inside
  have some_ : rosterLines texts ≠ [] := by simp [rosterLines, rosterHeader]
  rw [rosterFile, Toml.load_translate newline clean, rosterText,
    List.splitOn_intercalate _ (fun line mem => (oneLine line mem).1) some_, rosterLines, readLines_header]

/-- The table of a row, as `tomllib` returns it. -/
theorem loadRow_entries (t : RowText) : loadRow (ofTomlTable (.ofPairs t.entries)) = some (some t.row) := by
  rw [ofTomlTable, OrderedDict.ofPairs_items (entries_distinct t), RowText.entries, RowText.row]
  cases t.nickname <;> cases t.iotId <;> rfl

theorem mapM_loadRow (texts : List RowText) :
    (texts.map fun t => ofTomlTable (.ofPairs t.entries)).mapM loadRow = some (texts.map fun t => some t.row) := by
  induction texts with
  | nil => rfl
  | cons t texts ih =>
    rw [List.map_cons, List.mapM_cons, loadRow_entries, ih]
    rfl

theorem getD?_array (tables : List (Toml.Table PyValue)) :
    (PyValue.dict ((Toml.Document.array "mower".toList tables).root.items.map fun item =>
      (PyStr.ofChars item.1, ofTomlItem item.2))).getD? "mower" (.list []) =
      some (.list (tables.map ofTomlTable)) := by
  cases tables <;> rfl

/-- What is read of a file without a DEL. -/
theorem loadMowers_of_clean (all : ∀ t ∈ texts, PyInt.str? t.hc33Port = some t.digits ∧ t.Clean) :
    loadMowers beyond (some (rosterFile newline texts)) = some (texts.map RowText.row) := by
  have read := load_rosterFile beyond newline fun t mem => (all t mem).1
  rw [show (⟨.empty, none⟩ : Toml.Document PyValue) = .array "mower".toList [] from rfl, readLines_rows [] all,
    List.nil_append] at read
  rw [loadMowers, tomlLoad, read, Option.map_some, Option.bind_eq_bind, Option.bind_some, getD?_array, Option.bind_some,
    PyValue.iterate?, Option.bind_eq_bind, Option.bind_some, List.map_map]
  rw [show (ofTomlTable ∘ fun t => .ofPairs t.entries) = fun t : RowText => ofTomlTable (.ofPairs t.entries) from rfl,
    mapM_loadRow, Option.bind_eq_bind, Option.bind_some]
  simp

/-! ## A file that cannot be read -/

theorem optional_lines {label key : String} (is : Label label.toList key.toList) (s : Option (List Char)) :
    ∀ line ∈ RowText.optionalLine label s, Toml.statement (α := PyValue) line ≠ .other := by
  cases s with
  | none => exact nofun
  | some text =>
    intro line inside
    rw [List.mem_singleton.mp inside]
    exact statement_ne_other is text

/-- No line is of another form. -/
theorem lines_ne_other (digits : PyInt.str? t.hc33Port = some t.digits) :
    ∀ line ∈ t.lines, Toml.statement (α := PyValue) line ≠ .other := by
  have header : Toml.statement (α := PyValue) "[[mower]]".toList = .append "mower".toList := rfl
  simp only [RowText.lines, RowText.keyLines, List.cons_append, List.append_assoc, List.forall_mem_cons,
    List.forall_mem_append, List.nil_append, header, statement_port digits]
  exact ⟨nofun, statement_ne_other label_name _, optional_lines label_nickname _, statement_ne_other label_hc33Host _,
    nofun, optional_lines label_iotId _, nofun, nofun⟩

theorem optional_clean {label key : String} (is : Label label.toList key.toList) {s : Option (List Char)}
    (fine : ∀ line ∈ RowText.optionalLine label s, Toml.statement (α := PyValue) line ≠ .malformed) :
    ∀ text ∈ s, Clean text := by
  rintro text rfl
  by_contra dirty
  exact fine _ List.mem_cons_self (statement_of_not_clean is dirty)

/-- A DEL makes one of the lines malformed. -/
theorem clean_of_lines (fine : ∀ line ∈ t.lines, Toml.statement (α := PyValue) line ≠ .malformed) : t.Clean := by
  simp only [RowText.lines, RowText.keyLines, List.cons_append, List.append_assoc, List.forall_mem_cons,
    List.forall_mem_append, List.nil_append] at fine
  obtain ⟨_, name, nickname, hc33Host, _, iotId, _⟩ := fine
  refine ⟨?_, optional_clean label_nickname nickname, ?_, optional_clean label_iotId iotId⟩
  · by_contra dirty
    exact name (statement_of_not_clean label_name dirty)
  · by_contra dirty
    exact hc33Host (statement_of_not_clean label_hc33Host dirty)

/-- A file with a DEL is refused as a whole. -/
theorem loadMowers_of_not_clean (all : ∀ t ∈ texts, PyInt.str? t.hc33Port = some t.digits)
    (dirty : ∃ t ∈ texts, ¬ t.Clean) :
    loadMowers beyond (some (rosterFile newline texts)) = none := by
  have plain : ∀ line ∈ texts.flatMap RowText.lines, Toml.statement (α := PyValue) line ≠ .other := by
    intro line inside
    obtain ⟨t, mem, inside⟩ := List.mem_flatMap.mp inside
    exact lines_ne_other (all t mem) line inside
  obtain ⟨line, inside, bad⟩ : ∃ line ∈ texts.flatMap RowText.lines,
      Toml.statement (α := PyValue) line = .malformed := by
    obtain ⟨t, mem, dirty⟩ := dirty
    by_contra fine
    push Not at fine
    exact dirty (clean_of_lines fun line inside => fine line (List.mem_flatMap.mpr ⟨t, mem, inside⟩))
  obtain ⟨before, after, split⟩ := List.append_of_mem inside
  rw [loadMowers, tomlLoad, load_rosterFile beyond newline all, split,
    Toml.readLines_malformed (fun line inside => plain line (split ▸ List.mem_append_left _ inside)) bad]
  rfl

/-! ## What can be written -/

theorem mem_intercalate_of_mem {α : Type*} {x : α} {sep line : List α} {lines : List (List α)} (mem : line ∈ lines)
    (inside : x ∈ line) : x ∈ sep.intercalate lines := by
  induction lines with
  | nil => cases mem
  | cons first lines ih =>
    cases lines with
    | nil =>
      rw [List.mem_singleton.mp mem] at inside
      simpa using inside
    | cons next lines =>
      rw [List.intercalate_cons_cons, List.append_assoc, List.mem_append, List.mem_append]
      rcases List.mem_cons.mp mem with rfl | mem
      · exact .inl inside
      · exact .inr (.inr (ih mem))

theorem text?_of_optionalLine {label : String} (line : optionalLine label v = some lines)
    (encodable : ∀ line ∈ lines, PyStr.Encodable line) : ∃ s, optionalText? v = some s := by
  rw [optionalLine] at line
  rw [optionalText?]
  split_ifs at line ⊢
  · obtain ⟨quoted, is, rfl⟩ := Option.map_eq_some_iff.mp line
    have written := (PyStr.encodable_append.mp (encodable _ List.mem_cons_self)).2
    obtain ⟨s, text⟩ := text?_of_tomlQuote is written
    exact ⟨some s, by rw [text, Option.map_some]⟩
  · exact ⟨none, rfl⟩

/-- A row with lines that can be encoded has texts. -/
theorem hasText_of_mowerLines (made : mowerLines m = some lines) (encodable : ∀ line ∈ lines, PyStr.Encodable line) :
    ∃ t, m.HasText t := by
  simp only [mowerLines, Option.bind_eq_bind, Option.bind_eq_some_iff, Option.some.injEq] at made
  obtain ⟨name, hasName, nickname, hasNickname, host, hasHost, digits, hasDigits, iotId, hasIotId, rfl⟩ := made
  simp only [List.cons_append, List.append_assoc, List.forall_mem_cons, List.forall_mem_append, List.nil_append,
    PyStr.encodable_append] at encodable
  obtain ⟨_, nameLine, nicknameLine, hostLine, _, iotIdLine, _⟩ := encodable
  obtain ⟨name, isName⟩ := text?_of_tomlQuote hasName nameLine.2
  obtain ⟨nickname, isNickname⟩ := text?_of_optionalLine hasNickname nicknameLine
  obtain ⟨host, isHost⟩ := text?_of_tomlQuote hasHost hostLine.2
  obtain ⟨iotId, isIotId⟩ := text?_of_optionalLine hasIotId iotIdLine
  exact ⟨⟨name, nickname, host, m.hc33Port, digits, iotId⟩, isName, isNickname, isHost, rfl, hasDigits, isIotId⟩

theorem hasText_of_mapM {all : List (List PyStr)} (made : rows.mapM mowerLines = some all)
    (encodable : ∀ lines ∈ all, ∀ line ∈ lines, PyStr.Encodable line) :
    ∃ texts, List.Forall₂ Row.HasText rows texts := by
  induction rows generalizing all with
  | nil => exact ⟨[], .nil⟩
  | cons m rows ih =>
    simp only [List.mapM_cons, Option.bind_eq_bind, Option.bind_eq_some_iff, Option.pure_def, Option.some.injEq] at made
    obtain ⟨lines, here, more, later, rfl⟩ := made
    obtain ⟨t, text⟩ := hasText_of_mowerLines here (encodable lines List.mem_cons_self)
    obtain ⟨texts, all⟩ := ih later fun lines mem => encodable lines (List.mem_cons_of_mem _ mem)
    exact ⟨t :: texts, .cons text all⟩

/-- A roster that is written has texts. -/
theorem texts_of_saveMowers (written : saveMowers newline rows = some bytes) :
    ∃ texts, List.Forall₂ Row.HasText rows texts := by
  obtain ⟨all, made, written⟩ := Option.bind_eq_some_iff.mp written
  obtain ⟨text, chars, _⟩ := Option.map_eq_some_iff.mp written
  have encodable := PyStr.encodable_iff.mpr ⟨text, chars⟩
  refine hasText_of_mapM made fun lines mem line inside ch isIn => encodable ch ?_
  exact mem_intercalate_of_mem (List.mem_append_right _ (List.mem_flatten.mpr ⟨lines, mem, inside⟩)) isIn

/-! ## The normalised list -/

namespace MowerConfig

/-- A mower as `onboard_save` normalises it. -/
structure Normalised (cfg : MowerConfig) : Prop where
  name : cfg.name ≠ "" ∧ PyText.strip cfg.name.toList = cfg.name.toList
  nickname : cfg.nickname ≠ some ""
  hc33Host : cfg.hc33Host ≠ "" ∧ PyText.strip cfg.hc33Host.toList = cfg.hc33Host.toList
  iotId : cfg.iotId ≠ some ""

/-- No string has a DEL, and the port is not too long to be written. -/
structure Storable (cfg : MowerConfig) : Prop where
  name : Clean cfg.name.toList
  nickname : ∀ s ∈ cfg.nickname, Clean s.toList
  hc33Host : Clean cfg.hc33Host.toList
  hc33Port : (Nat.toDigits 10 cfg.hc33Port.natAbs).length ≤ PyInt.maxStrDigits
  iotId : ∀ s ∈ cfg.iotId, Clean s.toList

/-- The texts of a mower. -/
def text (cfg : MowerConfig) (digits : List Char) : RowText where
  name := cfg.name.toList
  nickname := cfg.nickname.map String.toList
  hc33Host := cfg.hc33Host.toList
  hc33Port := cfg.hc33Port
  digits := digits
  iotId := cfg.iotId.map String.toList

end MowerConfig

variable {cfg : MowerConfig} {list : List MowerConfig} {digits : List Char}

/-- What is saved is loaded as it was. -/
def RoundTrips (beyond : TomlRest) (newline : PyText.Newline) (list : List MowerConfig) : Prop :=
  ∃ bytes, saveMowers newline (list.map MowerConfig.row) = some bytes ∧
    loadMowers beyond (some bytes) = some (list.map MowerConfig.row)

theorem optionalText?_str {s : Option String} (nonempty : s ≠ some "") :
    optionalText? ((s.map fun s => PyValue.str (PyStr.lit s)).getD .none) = some (s.map String.toList) ∧
      RowText.optionalValue (s.map String.toList) = (s.map fun s => PyValue.str (PyStr.lit s)).getD .none := by
  cases s with
  | none => exact ⟨rfl, rfl⟩
  | some s =>
    have truthy : (PyValue.str (PyStr.lit s)).truthy = true := by
      simpa [PyValue.truthy, PyStr.lit, PyStr.ofChars] using fun empty => nonempty (congrArg some empty)
    constructor
    · rw [Option.map_some, Option.getD_some, optionalText?, if_pos truthy, PyValue.text?_str, PyStr.lit,
        PyStr.chars?_ofChars]
      rfl
    · exact if_pos truthy

theorem row_hasText (normal : cfg.Normalised) (written : PyInt.str? cfg.hc33Port = some digits) :
    cfg.row.HasText (cfg.text digits) where
  name := by rw [MowerConfig.row, PyValue.text?_str, PyStr.lit, PyStr.chars?_ofChars]; rfl
  nickname := (optionalText?_str normal.nickname).1
  hc33Host := by rw [MowerConfig.row, PyValue.text?_str, PyStr.lit, PyStr.chars?_ofChars]; rfl
  port := rfl
  digits := written
  iotId := (optionalText?_str normal.iotId).1

theorem row_text (normal : cfg.Normalised) (digits : List Char) : (cfg.text digits).row = cfg.row := by
  rw [RowText.row, MowerConfig.row, MowerConfig.text]
  simp only [(optionalText?_str normal.nickname).2, (optionalText?_str normal.iotId).2]
  rfl

/-- A row has one text. -/
theorem Row.HasText.unique {u : RowText} (left : m.HasText t) (right : m.HasText u) : t = u := by
  have port := left.port.symm.trans right.port
  have digits := left.digits
  rw [port, right.digits] at digits
  cases t; cases u
  simp only [RowText.mk.injEq]
  exact ⟨Option.some.inj (left.name.symm.trans right.name), Option.some.inj (left.nickname.symm.trans right.nickname),
    Option.some.inj (left.hc33Host.symm.trans right.hc33Host), port, (Option.some.inj digits).symm,
    Option.some.inj (left.iotId.symm.trans right.iotId)⟩

theorem str?_eq_some_iff {n : ℤ} :
    (∃ digits, PyInt.str? n = some digits) ↔ (Nat.toDigits 10 n.natAbs).length ≤ PyInt.maxStrDigits := by
  simp only [PyInt.str?]
  split_ifs with long negative
  · simpa using long
  · simpa using Nat.le_of_not_lt long
  · simpa using Nat.le_of_not_lt long

theorem storable_iff : cfg.Storable ↔ ∃ digits, PyInt.str? cfg.hc33Port = some digits ∧ (cfg.text digits).Clean := by
  constructor
  · rintro ⟨name, nickname, hc33Host, hc33Port, iotId⟩
    obtain ⟨digits, written⟩ := str?_eq_some_iff.mpr hc33Port
    refine ⟨digits, written, name, ?_, hc33Host, ?_⟩ <;>
      simpa only [MowerConfig.text, Option.mem_map, forall_exists_index, and_imp, forall_apply_eq_imp_iff₂]
  · rintro ⟨digits, written, name, nickname, hc33Host, iotId⟩
    exact ⟨name, fun s mem => nickname _ (Option.mem_map_of_mem _ mem), hc33Host,
      str?_eq_some_iff.mp ⟨digits, written⟩, fun s mem => iotId _ (Option.mem_map_of_mem _ mem)⟩

theorem forall₂_text (normal : ∀ cfg ∈ list, cfg.Normalised) (storable : ∀ cfg ∈ list, cfg.Storable) :
    ∃ texts, List.Forall₂ Row.HasText (list.map MowerConfig.row) texts ∧
      texts.map RowText.row = list.map MowerConfig.row ∧ ∀ t ∈ texts, PyInt.str? t.hc33Port = some t.digits ∧ t.Clean := by
  induction list with
  | nil => exact ⟨[], .nil, rfl, nofun⟩
  | cons cfg list ih =>
    have first := normal cfg List.mem_cons_self
    obtain ⟨digits, written, clean⟩ := storable_iff.mp (storable cfg List.mem_cons_self)
    obtain ⟨texts, all, rows, fine⟩ := ih (fun cfg mem => normal cfg (List.mem_cons_of_mem _ mem))
      fun cfg mem => storable cfg (List.mem_cons_of_mem _ mem)
    refine ⟨cfg.text digits :: texts, .cons (row_hasText first written) all, ?_, ?_⟩
    · rw [List.map_cons, List.map_cons, row_text first, rows]
    · exact List.forall_mem_cons.mpr ⟨⟨written, clean⟩, fine⟩

theorem exists_of_forall₂_left {α β : Type*} {R : α → β → Prop} {xs : List α} {ys : List β} {x : α}
    (all : List.Forall₂ R xs ys) (mem : x ∈ xs) : ∃ y ∈ ys, R x y := by
  induction all with
  | nil => cases mem
  | cons related _ ih =>
    rcases List.mem_cons.mp mem with rfl | mem
    · exact ⟨_, List.mem_cons_self, related⟩
    · obtain ⟨y, inside, related⟩ := ih mem
      exact ⟨y, List.mem_cons_of_mem _ inside, related⟩

/-- The ports of a roster that is written. -/
theorem digits_of_forall₂ (all : List.Forall₂ Row.HasText rows texts) :
    ∀ t ∈ texts, PyInt.str? t.hc33Port = some t.digits := by
  intro t mem
  obtain ⟨m, _, text⟩ := exists_of_forall₂_left all.flip mem
  exact text.digits

/-- A normalised list round-trips if no string has a DEL and no port is too long, and only then. -/
theorem roster_roundTrips_iff (beyond : TomlRest) (newline : PyText.Newline) (list : List MowerConfig)
    (normal : ∀ cfg ∈ list, cfg.Normalised) :
    RoundTrips beyond newline list ↔ ∀ cfg ∈ list, cfg.Storable := by
  constructor
  · rintro ⟨bytes, saved, loaded⟩ cfg mem
    obtain ⟨texts, all⟩ := texts_of_saveMowers saved
    rw [saveMowers_of_texts all, Option.some.injEq] at saved
    subst saved
    have digits := digits_of_forall₂ all
    have clean : ∀ t ∈ texts, t.Clean := by
      by_contra dirty
      push Not at dirty
      rw [loadMowers_of_not_clean digits dirty] at loaded
      cases loaded
    obtain ⟨t, inside, text⟩ := exists_of_forall₂_left all (List.mem_map_of_mem mem)
    have written := text.digits
    rw [← text.port] at written
    rw [storable_iff]
    refine ⟨t.digits, written, ?_⟩
    rw [(row_hasText (normal cfg mem) written).unique text]
    exact clean t inside
  · intro storable
    obtain ⟨texts, all, rows, fine⟩ := forall₂_text normal storable
    exact ⟨_, saveMowers_of_texts all, by rw [loadMowers_of_clean fine, rows]⟩

/-- Two mowers, of which one has a nickname with a quote and a line end. -/
def twoMowers : List MowerConfig :=
  [⟨"Luba-ABCD1234", some "the \"big\" one\n", "192.168.1.54", 9876, none⟩,
    ⟨"Luba-\\", none, "192.168.1.55", -1, some "iot\x07"⟩]

theorem twoMowers_normalised : ∀ cfg ∈ twoMowers, cfg.Normalised := by
  simp only [twoMowers, List.forall_mem_cons]
  exact ⟨⟨by decide, by decide, by decide, by decide⟩, ⟨by decide, by decide, by decide, by decide⟩, nofun⟩

theorem roster_roundTrips_twoMowers :
    RoundTrips (fun _ _ => none) .crlf twoMowers ↔ ∀ cfg ∈ twoMowers, cfg.Storable :=
  roster_roundTrips_iff _ _ _ twoMowers_normalised

/-- The DEL of a name is written as it is, and the file cannot be read. -/
theorem delName_unreadable :
    ¬ ∀ list : List MowerConfig, (∀ cfg ∈ list, cfg.Normalised) → RoundTrips (fun _ _ => none) .lf list := by
  intro all
  let mower : MowerConfig := ⟨"Luba-\x7F", none, "192.168.1.54", 9876, none⟩
  have normal : mower.Normalised := ⟨by decide, by decide, by decide, by decide⟩
  obtain ⟨bytes, saved, loaded⟩ := all [mower] (by simpa using normal)
  have text : mower.row.HasText (mower.text "9876".toList) := row_hasText normal (by decide)
  rw [List.map_singleton, saveMowers_of_texts (.cons text .nil), Option.some.injEq] at saved
  subst saved
  rw [loadMowers_of_not_clean (by simpa using text.digits)] at loaded
  · cases loaded
  · exact ⟨_, List.mem_singleton_self _, fun clean => absurd clean.name (by decide)⟩

end MammotionRc.Server
