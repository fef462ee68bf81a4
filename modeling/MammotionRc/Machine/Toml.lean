import MammotionRc.Machine.Hex
import MammotionRc.Machine.OrderedDict
import MammotionRc.Machine.PyInt
import MammotionRc.Machine.PyText
import MammotionRc.Machine.Utf8

/-! # Plain TOML documents

Python's reader of TOML, for documents of comments, of bare keys with basic strings or decimal integers, and of arrays
of tables. A statement of these forms is one line. What the reader does with a document from the first line on that
is of another form is a parameter.
-/

namespace MammotionRc.Machine.Toml

/-- What a key has; `other` has no form that is read here. -/
inductive Value (α : Type*)
  | string (text : List Char)
  | integer (n : ℤ)
  | other (x : α)
deriving DecidableEq

abbrev Table (α : Type*) := OrderedDict (List Char) (Value α)

inductive Item (α : Type*)
  | value (v : Value α)
  | tables (rows : List (Table α))
deriving DecidableEq

abbrev Root (α : Type*) := OrderedDict (List Char) (Item α)

/-- A document as far as it has been read. Keys go to the last table of the array `header`, if there is one. -/
structure Document (α : Type*) where
  root : Root α
  header : Option (List Char)

/-- What is on a line. -/
inductive Statement (α : Type*)
  | nothing
  | pair (key : List Char) (v : Value α)
  /-- `[[name]]`. -/
  | append (name : List Char)
  | malformed
  | other

/-- A control character other than the tab. -/
def isIllegal (c : Char) : Bool := c ≠ '\t' ∧ (c.toNat < 0x20 ∨ c.toNat = 0x7F)

def isBlank (c : Char) : Bool := c = ' ' ∨ c = '\t'

def skipBlanks (text : List Char) : List Char := text.dropWhile isBlank

def isBareKeyChar (c : Char) : Bool := c.isAlphanum ∨ c = '-' ∨ c = '_'

/-- Where the scanner of a basic string is. -/
inductive Scan
  | text
  /-- Behind a backslash. -/
  | escape
  /-- Before `left` digits of a code. -/
  | hex (left code : ℕ)

/-- What a backslash and a letter stand for. -/
def escaped? (c : Char) : Option Char :=
  [('b', '\x08'), ('t', '\t'), ('n', '\n'), ('f', '\x0C'), ('r', '\r'), ('"', '"'), ('\\', '\\')].lookup c

/-- A character by its code. -/
def scalar? (code : ℕ) : Option Char :=
  if code < 0xD800 ∨ (0xDFFF < code ∧ code < 0x110000) then some (Char.ofNat code) else none

/-- The rest of a basic string, up to its closing quote, and what follows it. -/
def scan : Scan → List Char → Option (List Char × List Char)
  | _, [] => none
  | .text, c :: rest =>
    if c = '"' then some ([], rest)
    else if c = '\\' then scan .escape rest
    else if isIllegal c then none
    else (scan .text rest).map fun found => (c :: found.1, found.2)
  | .escape, c :: rest =>
    if c = 'u' then scan (.hex 4 0) rest
    else if c = 'U' then scan (.hex 8 0) rest
    else do
      let replaced ← escaped? c
      let found ← scan .text rest
      some (replaced :: found.1, found.2)
  | .hex left code, c :: rest => do
    let digit ← Hex.value? c
    if left = 1 then
      let replaced ← scalar? (16 * code + digit)
      let found ← scan .text rest
      some (replaced :: found.1, found.2)
    else scan (.hex (left - 1) (16 * code + digit)) rest

/-- A statement may end here: nothing follows but blanks and a comment. -/
def ends (rest : List Char) : Bool :=
  match skipBlanks rest with
  | [] => true
  | '#' :: comment => comment.all (!isIllegal ·)
  | _ => false

/-- The sign of a number, and what follows it. -/
def sign : List Char → ℤ × List Char
  | '-' :: rest => (-1, rest)
  | '+' :: rest => (1, rest)
  | text => (1, text)

/-- The digits of a decimal integer. -/
def digits : List Char → List Char
  | '0' :: _ => ['0']
  | text => text.takeWhile Char.isDigit

variable {α : Type*}

/-- What follows the `=` of a key. -/
def pair (key text : List Char) : Statement α :=
  match skipBlanks text with
  | '"' :: '"' :: '"' :: _ => .other
  | '"' :: rest =>
    match scan .text rest with
    | some (found, rest) => if ends rest then .pair key (.string found) else .malformed
    | none => .malformed
  | text =>
    let (s, unsigned) := sign text
    if digits unsigned = [] ∨ ¬ ends (unsigned.drop (digits unsigned).length) then .other
    -- `int` refuses what is too long.
    else if PyInt.maxStrDigits < (digits unsigned).length then .malformed
    else .pair key (.integer (s * Nat.ofDigitChars 10 (digits unsigned) 0))

/-- What follows `[[`. -/
def header (text : List Char) : Statement α :=
  let name := (skipBlanks text).takeWhile isBareKeyChar
  match skipBlanks ((skipBlanks text).dropWhile isBareKeyChar) with
  | ']' :: ']' :: rest => if name ≠ [] ∧ ends rest then .append name else .malformed
  | _ => .other

def statement (line : List Char) : Statement α :=
  match skipBlanks line with
  | [] => .nothing
  | '#' :: comment => if comment.all (!isIllegal ·) then .nothing else .malformed
  | '[' :: '[' :: text => header text
  | text =>
    match skipBlanks (text.dropWhile isBareKeyChar) with
    | '=' :: rest => if text.takeWhile isBareKeyChar = [] then .malformed else pair (text.takeWhile isBareKeyChar) rest
    | _ => .other

namespace Document

/-- `key = v`; `none` if it is an error. -/
def assign (doc : Document α) (key : List Char) (v : Value α) : Option (Document α) :=
  match doc.header with
  | none => if key ∈ doc.root.keys then none else some { doc with root := doc.root.set key (.value v) }
  | some name =>
    match doc.root.get? name with
    | some (.tables rows) =>
      match rows.getLast? with
      | some row =>
        if key ∈ row.keys then none
        else some { doc with root := doc.root.set name (.tables (rows.dropLast ++ [row.set key v])) }
      | none => none
    | _ => none

/-- `[[name]]`; `none` if it is an error. -/
def append (doc : Document α) (name : List Char) : Option (Document α) :=
  match doc.root.get? name with
  | none => some ⟨doc.root.set name (.tables [.empty]), some name⟩
  | some (.tables rows) => some ⟨doc.root.set name (.tables (rows ++ [.empty])), some name⟩
  | some (.value _) => none

/-- One line that is not `other`. -/
def step (doc : Document α) : Statement α → Option (Document α)
  | .nothing => some doc
  | .pair key v => doc.assign key v
  | .append name => doc.append name
  | .malformed | .other => none

end Document

section

variable (beyond : Document α → List (List Char) → Option (Root α))

/-- Read on; `beyond` reads on from a line of another form. -/
def readLines (doc : Document α) : List (List Char) → Option (Root α)
  | [] => some doc.root
  | line :: lines =>
    match statement (α := α) line with
    | .other => beyond doc (line :: lines)
    | found => (doc.step found).bind (readLines · lines)

/-- `text.replace("\r\n", "\n")`. -/
def joinCrLf : List Char → List Char
  | [] => []
  | [c] => [c]
  | c :: d :: rest => if c = '\r' ∧ d = '\n' then '\n' :: joinCrLf rest else c :: joinCrLf (d :: rest)

/-- `tomllib.loads`; `none` if it raises. -/
def loads (text : List Char) : Option (Root α) := readLines beyond ⟨.empty, none⟩ ((joinCrLf text).splitOn '\n')

/-- `tomllib.load`; `none` if it raises. -/
def load (bytes : List UInt8) : Option (Root α) := (Utf8.decode? bytes).bind (loads beyond)

end

section Scan

variable {escape : Char → List Char} {piece s rest : List Char} {c e : Char}

theorem scan_text (c : Char) (rest : List Char) : scan .text (c :: rest) =
    if c = '"' then some ([], rest)
    else if c = '\\' then scan .escape rest
    else if isIllegal c then none
    else (scan .text rest).map fun found => (c :: found.1, found.2) := rfl

theorem scan_escape (c : Char) (rest : List Char) : scan .escape (c :: rest) =
    if c = 'u' then scan (.hex 4 0) rest
    else if c = 'U' then scan (.hex 8 0) rest
    else (escaped? c).bind fun replaced => (scan .text rest).bind fun found =>
      some (replaced :: found.1, found.2) := rfl

theorem scan_hex (left code : ℕ) (c : Char) (rest : List Char) : scan (.hex left code) (c :: rest) =
    (Hex.value? c).bind fun digit =>
      if left = 1 then (scalar? (16 * code + digit)).bind fun replaced => (scan .text rest).bind fun found =>
        some (replaced :: found.1, found.2)
      else scan (.hex (left - 1) (16 * code + digit)) rest := rfl

/-- The scanner reads a piece of a string as the character. -/
def Reads (piece : List Char) (c : Char) : Prop :=
  ∀ rest, scan .text (piece ++ rest) = (scan .text rest).map fun found => (c :: found.1, found.2)

/-- A character that needs no escape. -/
theorem reads_self (legal : isIllegal c = false) (quote : c ≠ '"') (backslash : c ≠ '\\') : Reads [c] c := by
  intro rest
  rw [List.singleton_append, scan_text, if_neg quote, if_neg backslash, if_neg (Bool.eq_false_iff.mp legal)]

theorem reads_escape (stands : escaped? e = some c) (short : e ≠ 'u') (long : e ≠ 'U') : Reads ['\\', e] c := by
  intro rest
  rw [List.cons_append, List.singleton_append, scan_text, if_neg (by decide), if_pos rfl, scan_escape, if_neg short,
    if_neg long, stands]
  cases scan .text rest <;> rfl

/-- The code of a character in four digits. -/
theorem reads_word (small : c.toNat < 0xD800) : Reads ('\\' :: 'u' :: Hex.word c.toNat) c := by
  intro rest
  have code : 16 * (16 * (16 * (16 * 0 + c.toNat / 0x1000) + c.toNat / 0x100 % 16) + c.toNat / 16 % 16) +
      c.toNat % 16 = c.toNat := by omega
  have scalar : scalar? c.toNat = some c := by
    rw [scalar?, if_pos (.inl small), Char.ofNat_toNat]
  simp only [Hex.word, List.cons_append, List.nil_append]
  rw [scan_text, if_neg (by decide), if_pos rfl, scan_escape, if_pos rfl]
  have first := Hex.value?_digit (n := c.toNat / 0x1000) (by omega)
  have other := fun n => Hex.value?_digit (Nat.mod_lt n (by decide : 0 < 16))
  simp only [scan_hex, first, other, Option.bind_some, code, scalar]
  cases scan .text rest <;> rfl

/-- A piece that is read as a character does not close the string. -/
theorem Reads.front (reads : Reads piece c) : ∃ d more, piece = d :: more ∧ d ≠ '"' := by
  have closed := reads ['"']
  cases piece with
  | nil => simp [scan_text] at closed
  | cons d more =>
    refine ⟨d, more, rfl, ?_⟩
    rintro rfl
    simp [scan_text] at closed

theorem scan_flatMap (reads : ∀ c ∈ s, Reads (escape c) c) (rest : List Char) :
    scan .text (s.flatMap escape ++ '"' :: rest) = some (s, rest) := by
  induction s with
  | nil => rfl
  | cons c s ih =>
    rw [List.flatMap_cons, List.append_assoc, reads c List.mem_cons_self,
      ih fun d inside => reads d (List.mem_cons_of_mem _ inside)]
    rfl

/-- A control character that is not escaped is refused. -/
theorem scan_illegal (each : ∀ c ∈ s, Reads (escape c) c ∨ isIllegal c ∧ escape c = [c])
    (raw : ∃ c ∈ s, isIllegal c ∧ escape c = [c]) (rest : List Char) :
    scan .text (s.flatMap escape ++ rest) = none := by
  induction s with
  | nil => exact absurd raw (by simp)
  | cons c s ih =>
    rw [List.flatMap_cons, List.append_assoc]
    rcases each c List.mem_cons_self with reads | ⟨illegal, same⟩
    · by_cases here : isIllegal c ∧ escape c = [c]
      · rw [here.2, List.singleton_append, scan_text, if_neg, if_neg, if_pos here.1] <;> rintro rfl <;>
          exact absurd here.1 (by decide)
      · rw [reads, ih fun d inside => each d (List.mem_cons_of_mem _ inside)]
        · rfl
        · obtain ⟨d, inside, both⟩ := raw
          rcases List.mem_cons.mp inside with rfl | inside
          · exact absurd both here
          · exact ⟨d, inside, both⟩
    · rw [same, List.singleton_append, scan_text, if_neg, if_neg, if_pos illegal] <;> rintro rfl <;>
        exact absurd illegal (by decide)

end Scan

section Statement

variable {escape : Char → List Char} {key pad s text : List Char} {c : Char}

/-- A text between quotes. -/
def quote (escape : Char → List Char) (s : List Char) : List Char := '"' :: s.flatMap escape ++ ['"']

theorem isBlank_of_isBareKeyChar (bare : isBareKeyChar c = true) : isBlank c = false := by
  rw [isBlank, decide_eq_false_iff_not]
  rintro (rfl | rfl) <;> exact absurd bare (by decide)

theorem skipBlanks_append (blank : ∀ c ∈ pad, isBlank c = true) (text : List Char) :
    skipBlanks (pad ++ text) = skipBlanks text := List.dropWhile_append_of_pos blank

theorem skipBlanks_cons (solid : isBlank c = false) (text : List Char) : skipBlanks (c :: text) = c :: text :=
  List.dropWhile_cons_of_neg (Bool.eq_false_iff.mp solid)

/-- A line with a comment only. -/
theorem statement_comment {line : List Char} (marked : line.head? = some '#')
    (legal : line.tail.all (!isIllegal ·) = true) : statement (α := α) line = .nothing := by
  obtain ⟨comment, rfl⟩ : ∃ comment, line = '#' :: comment := ⟨_, (List.cons_head?_tail marked).symm⟩
  rw [statement, skipBlanks_cons (by decide)]
  exact if_pos legal

/-- A line with a bare key and an equals sign. -/
theorem statement_pair (bare : ∀ c ∈ key, isBareKeyChar c = true) (nonempty : key ≠ [])
    (blank : ∀ c ∈ pad, isBlank c = true) (text : List Char) :
    statement (α := α) (key ++ pad ++ '=' :: text) = pair key text := by
  cases key with
  | nil => exact absurd rfl nonempty
  | cons c key =>
    have first := bare c List.mem_cons_self
    have stop : ∀ d ∈ (pad ++ '=' :: text).head?, isBareKeyChar d = false := by
      cases pad with
      | nil => simp; decide
      | cons d pad =>
        simp only [List.cons_append, List.head?_cons, Option.mem_some_iff, forall_eq']
        by_contra bareBlank
        have solid := isBlank_of_isBareKeyChar (Bool.not_eq_false _ ▸ bareBlank)
        rw [blank d List.mem_cons_self] at solid
        cases solid
    have split : (c :: key ++ (pad ++ '=' :: text)).dropWhile isBareKeyChar = pad ++ '=' :: text ∧
        (c :: key ++ (pad ++ '=' :: text)).takeWhile isBareKeyChar = c :: key := by
      rw [List.dropWhile_append_of_pos bare, List.takeWhile_append_of_pos bare]
      cases tail : pad ++ '=' :: text with
      | nil => exact absurd tail (by simp)
      | cons d more =>
        rw [tail] at stop
        have solid := stop d rfl
        simp [solid]
    rw [List.append_assoc, statement, List.cons_append, skipBlanks_cons (isBlank_of_isBareKeyChar first)]
    rw [List.cons_append] at split
    split
    next empty => cases empty
    next comment same =>
      rw [(List.cons.inj same).1] at first
      exact absurd first (by decide)
    next same =>
      rw [(List.cons.inj same).1] at first
      exact absurd first (by decide)
    next =>
      rw [split.1, split.2, skipBlanks_append blank, skipBlanks_cons (by decide)]
      simp

theorem skipBlanks_blank_cons (solid : isBlank c = false) (text : List Char) :
    skipBlanks (' ' :: c :: text) = c :: text := by
  rw [skipBlanks, List.dropWhile_cons_of_pos (by decide)]
  exact skipBlanks_cons solid text

/-- The quotes around a text are not those of a string of several lines. -/
theorem not_multiline (front : ∀ c ∈ s, ∃ d more, escape c = d :: more ∧ d ≠ '"') (more : List Char) :
    s.flatMap escape ++ ['"'] ≠ '"' :: '"' :: more := by
  cases s with
  | nil => simp
  | cons c s =>
    obtain ⟨d, tail, starts, open_⟩ := front c List.mem_cons_self
    rw [List.flatMap_cons, starts]
    intro same
    exact open_ (List.cons.inj same).1

theorem pair_quote (front : ∀ c ∈ s, ∃ d more, escape c = d :: more ∧ d ≠ '"') :
    pair (α := α) key (' ' :: quote escape s) =
      match scan .text (s.flatMap escape ++ ['"']) with
      | some (found, rest) => if ends rest then .pair key (.string found) else .malformed
      | none => .malformed := by
  rw [pair, quote, List.cons_append, skipBlanks_blank_cons (by decide)]
  have single := not_multiline front
  split
  next more same => exact absurd (List.cons.inj same).2 (single more)
  next rest _ same => rw [(List.cons.inj same).2]
  next _ quoted => exact absurd rfl (quoted _)

/-- What is quoted so that the scanner reads it is the string. -/
theorem pair_quote_of_reads (reads : ∀ c ∈ s, Reads (escape c) c) :
    pair (α := α) key (' ' :: quote escape s) = .pair key (.string s) := by
  rw [pair_quote fun c inside => (reads c inside).front, scan_flatMap reads]
  rfl

/-- A control character that is not escaped makes the line malformed. -/
theorem pair_quote_of_illegal (each : ∀ c ∈ s, Reads (escape c) c ∨ isIllegal c ∧ escape c = [c])
    (raw : ∃ c ∈ s, isIllegal c ∧ escape c = [c]) : pair (α := α) key (' ' :: quote escape s) = .malformed := by
  rw [pair_quote, scan_illegal each raw]
  intro c inside
  rcases each c inside with reads | ⟨illegal, same⟩
  · exact reads.front
  · refine ⟨c, [], same, ?_⟩
    rintro rfl
    exact absurd illegal (by decide)

theorem digits_toDigits (n : ℕ) : digits (Nat.toDigits 10 n) = Nat.toDigits 10 n := by
  cases starts : Nat.toDigits 10 n with
  | nil => exact absurd starts Nat.toDigits_ne_nil
  | cons c more =>
    have all : ∀ d ∈ c :: more, d.isDigit = true := fun d inside =>
      Nat.isDigit_of_mem_toDigits (b := 10) (n := n) (by decide) (by decide) (starts ▸ inside)
    by_cases zero : c = '0'
    · subst zero
      rw [PyInt.toDigits_zero_cons starts, digits]
    · rw [digits]
      · exact List.takeWhile_eq_self_iff.mpr all
      · intro rest same
        exact zero (List.cons.inj same).1

theorem sign_of_isDigit (digit : c.isDigit = true) (text : List Char) : sign (c :: text) = (1, c :: text) := by
  rw [sign] <;> rintro rest same <;> rw [(List.cons.inj same).1] at digit <;> exact absurd digit (by decide)

theorem pair_digits {n : ℕ} {k : ℤ} (signed : sign (c :: text) = (k, Nat.toDigits 10 n)) (solid : isBlank c = false)
    (bare : c ≠ '"') (short : ¬ PyInt.maxStrDigits < (Nat.toDigits 10 n).length) :
    pair (α := α) key (' ' :: c :: text) = .pair key (.integer (k * n)) := by
  rw [pair, skipBlanks_blank_cons solid]
  split
  next same => exact absurd (List.cons.inj same).1 bare
  next same => exact absurd (List.cons.inj same).1 bare
  next =>
    rw [signed]
    simp only
    rw [digits_toDigits, List.drop_length, if_neg, if_neg short, Nat.ofDigitChars_ten_toDigits]
    rintro (none | goesOn)
    · exact Nat.toDigits_ne_nil none
    · exact goesOn rfl

/-- A number is read as it was written. -/
theorem pair_int {n : ℤ} (written : PyInt.str? n = some s) : pair (α := α) key (' ' :: s) = .pair key (.integer n) := by
  simp only [PyInt.str?] at written
  split_ifs at written with long negative <;> cases written
  · rw [pair_digits (n := n.natAbs) (k := -1) rfl (by decide) (by decide) long,
      Int.ofNat_natAbs_of_nonpos (Int.le_of_lt negative), Int.neg_mul, Int.one_mul, Int.neg_neg]
  · cases starts : Nat.toDigits 10 n.natAbs with
    | nil => exact absurd starts Nat.toDigits_ne_nil
    | cons c more =>
      have digit : c.isDigit = true :=
        Nat.isDigit_of_mem_toDigits (b := 10) (n := n.natAbs) (by decide) (by decide) (starts ▸ List.mem_cons_self)
      have bare : isBareKeyChar c = true := by simp [isBareKeyChar, Char.isAlphanum, digit]
      rw [pair_digits (n := n.natAbs) (k := 1) _ (isBlank_of_isBareKeyChar bare) _ long, Int.one_mul,
        Int.natAbs_of_nonneg (Int.not_lt.mp negative)]
      · rw [starts]
        exact sign_of_isDigit digit more
      · rintro rfl
        exact absurd digit (by decide)

end Statement

section Document

variable {name key : List Char} {rows : List (Table α)} {row : Table α} {v : Value α}
  {entries : List (List Char × Value α)}

/-- A document of one array of tables, which is being written. -/
def Document.array (name : List Char) (rows : List (Table α)) : Document α :=
  if rows = [] then ⟨.empty, none⟩ else ⟨OrderedDict.empty.set name (.tables rows), some name⟩

/-- Keys one after the other. -/
def Document.assigns (doc : Document α) (entries : List (List Char × Value α)) : Option (Document α) :=
  entries.foldlM (fun doc entry => doc.assign entry.1 entry.2) doc

theorem Document.array_concat (name : List Char) (rows : List (Table α)) (row : Table α) :
    array name (rows ++ [row]) = ⟨OrderedDict.empty.set name (.tables (rows ++ [row])), some name⟩ :=
  if_neg (by simp)

theorem Document.array_append (name : List Char) (rows : List (Table α)) :
    (array name rows).append name = some (array name (rows ++ [OrderedDict.empty])) := by
  rw [array_concat]
  by_cases first : rows = []
  · rw [first]
    rfl
  · simp only [array, if_neg first, append, OrderedDict.get?_set, if_true, OrderedDict.set_set]

theorem Document.array_assign (fresh : key ∉ row.keys) (v : Value α) :
    (array name (rows ++ [row])).assign key v = some (array name (rows ++ [row.set key v])) := by
  rw [array_concat, array_concat, assign]
  simp only [OrderedDict.get?_set, if_true, List.getLast?_concat, if_neg fresh, List.dropLast_concat,
    OrderedDict.set_set]

/-- The keys of the last table. -/
theorem Document.array_assigns (distinct : (entries.map Prod.fst).Nodup) :
    (array name (rows ++ [OrderedDict.empty])).assigns entries =
      some (array name (rows ++ [OrderedDict.ofPairs entries])) := by
  induction entries using List.reverseRecOn with
  | nil => rfl
  | append_singleton entries last ih =>
    rw [List.map_append, List.nodup_append] at distinct
    have fresh : last.1 ∉ (OrderedDict.ofPairs entries).keys := fun mem =>
      distinct.2.2 _ (OrderedDict.mem_keys_ofPairs.mp mem) _ List.mem_cons_self rfl
    rw [assigns, List.foldlM_append, ← assigns, ih distinct.1, OrderedDict.ofPairs_concat]
    simp [array_assign fresh]

/-- The keys of a document without tables. -/
theorem Document.root_assigns (distinct : (entries.map Prod.fst).Nodup) :
    assigns ⟨.empty, none⟩ entries = some ⟨.ofPairs (entries.map fun entry => (entry.1, .value entry.2)), none⟩ := by
  induction entries using List.reverseRecOn with
  | nil => rfl
  | append_singleton entries last ih =>
    rw [List.map_append, List.nodup_append] at distinct
    have fresh : last.1 ∉ (OrderedDict.ofPairs (entries.map fun entry => (entry.1, Item.value entry.2))).keys := by
      intro mem
      have mem := OrderedDict.mem_keys_ofPairs.mp mem
      rw [List.map_map] at mem
      exact distinct.2.2 _ mem _ List.mem_cons_self rfl
    rw [assigns, List.foldlM_append, ← assigns, ih distinct.1, List.map_append, List.map_singleton,
      OrderedDict.ofPairs_concat]
    simp [assign, if_neg fresh]

variable {beyond : Document α → List (List Char) → Option (Root α)} {doc : Document α} {line : List Char}
  {lines rest : List (List Char)} {found : Statement α}

theorem readLines_cons (is : statement line = found) (plain : found ≠ .other) :
    readLines beyond doc (line :: lines) = (doc.step found).bind (readLines beyond · lines) := by
  subst is
  rw [readLines]
  split
  next other => exact absurd other plain
  next => rfl

theorem readLines_pairs (pairs : lines.map statement = entries.map fun entry => .pair entry.1 entry.2) :
    readLines beyond doc (lines ++ rest) =
      (doc.assigns entries).bind (readLines beyond · rest) := by
  induction lines generalizing entries doc with
  | nil =>
    rw [List.map_nil, eq_comm, List.map_eq_nil_iff] at pairs
    subst pairs
    rfl
  | cons line lines ih =>
    cases entries with
    | nil => cases pairs
    | cons entry entries =>
      rw [List.map_cons, List.map_cons, List.cons.injEq] at pairs
      rw [List.cons_append, readLines_cons pairs.1 nofun, Document.assigns, List.foldlM_cons, Document.step]
      cases doc.assign entry.1 entry.2 with
      | none => rfl
      | some next => exact ih pairs.2

/-- Comments and empty lines. -/
theorem readLines_nothing (nothing : ∀ line ∈ lines, statement (α := α) line = .nothing) :
    readLines beyond doc (lines ++ rest) = readLines beyond doc rest := by
  induction lines with
  | nil => rfl
  | cons line lines ih =>
    rw [List.cons_append, readLines_cons (nothing line List.mem_cons_self) nofun, Document.step, Option.bind_some]
    exact ih fun line inside => nothing line (List.mem_cons_of_mem _ inside)

/-- A table at the end of the array. -/
theorem readLines_table {header : List Char} (opens : statement (α := α) header = .append name)
    (pairs : lines.map statement = entries.map fun entry => .pair entry.1 entry.2)
    (distinct : (entries.map Prod.fst).Nodup) :
    readLines beyond (.array name rows) (header :: lines ++ rest) =
      readLines beyond (.array name (rows ++ [OrderedDict.ofPairs entries])) rest := by
  rw [List.cons_append, readLines_cons opens nofun, Document.step, Document.array_append, Option.bind_some,
    readLines_pairs pairs, Document.array_assigns distinct, Option.bind_some]

/-- Nothing that is read before a malformed line makes up for it. -/
theorem readLines_malformed (plain : ∀ line ∈ lines, statement (α := α) line ≠ .other)
    (bad : statement (α := α) line = .malformed) : readLines beyond doc (lines ++ line :: rest) = none := by
  induction lines generalizing doc with
  | nil =>
    rw [List.nil_append, readLines_cons bad nofun]
    rfl
  | cons first lines ih =>
    rw [List.cons_append, readLines_cons rfl (plain first List.mem_cons_self)]
    cases doc.step (statement first) with
    | none => rfl
    | some next => exact ih fun line inside => plain line (List.mem_cons_of_mem _ inside)

end Document

section File

open PyText

variable {beyond : Document α → List (List Char) → Option (Root α)} {text rest : List Char} {c : Char}

theorem joinCrLf_cons (other : c ≠ '\r') (rest : List Char) : joinCrLf (c :: rest) = c :: joinCrLf rest := by
  cases rest with
  | nil => rfl
  | cons d rest => rw [joinCrLf, if_neg fun same => other same.1]

/-- The line ends of a file, of either kind, are those of the text. -/
theorem joinCrLf_translate (newline : Newline) (clean : '\r' ∉ text) : joinCrLf (newline.translate text) = text := by
  induction text with
  | nil => rfl
  | cons c text ih =>
    have here := ih fun inside => clean (List.mem_cons_of_mem _ inside)
    rw [Newline.translate, List.flatMap_cons, ← Newline.translate]
    split_ifs with ends
    · subst ends
      cases newline with
      | lf => rw [Newline.chars, List.singleton_append, joinCrLf_cons (by decide), here]
      | crlf => rw [Newline.chars, List.cons_append, List.singleton_append, joinCrLf, if_pos ⟨rfl, rfl⟩, here]
    · rw [List.singleton_append, joinCrLf_cons (fun same => clean (same ▸ List.mem_cons_self)), here]

/-- A text file is read line by line. -/
theorem load_translate (newline : Newline) (clean : '\r' ∉ text) :
    load beyond (Utf8.encode (newline.translate text)) = readLines beyond ⟨.empty, none⟩ (text.splitOn '\n') := by
  rw [load, Utf8.decode?_encode, Option.bind_some, loads, joinCrLf_translate newline clean]

end File

end MammotionRc.Machine.Toml
