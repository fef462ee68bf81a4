import Mathlib.Data.List.Flatten
import MammotionRc.Server.Install
import MammotionRc.Soundness.QuotedText

/-! # One file of secrets with two writers

What is given for a key replaces what was given before, what is left blank keeps it, and a flag that is explicitly
empty removes it. The file follows this through any run of the two writers as long as each of them can quote all that
it writes, and the installer gets a password only together with an email address.
-/

namespace MammotionRc.Server

open Machine

/-! ## What was given last -/

/-- A key of `secrets.toml`. -/
inductive Key
  | email
  | password
  | webUsername
  | webPassword
deriving DecidableEq, Repr

def Key.name : Key → String
  | email => "email"
  | password => "password"
  | webUsername => "web_username"
  | webPassword => "web_password"

/-- What a step gives for a key. -/
inductive Change
  | keep
  | put (s : List Char)
  | remove

namespace Change

/-- An entry that may be left blank. -/
def ofEntry (s : List Char) : Change := if s = [] then keep else put s

/-- A flag, which removes the key if it is empty. -/
def ofFlag (s : List Char) : Change := if s = [] then remove else put s

def apply : Change → Option (List Char) → Option (List Char)
  | keep, old => old
  | put s, _ => some s
  | remove, _ => none

end Change

abbrev Given := Key → Option (List Char)

/-- The installer asks for the password of the account. -/
def Asked (args : InstallArgs) (interactive : Bool) (entered : Entered) : Prop :=
  args.email = none ∧ interactive = true ∧ PyText.strip entered.email ≠ []

instance (args : InstallArgs) (interactive : Bool) (entered : Entered) : Decidable (Asked args interactive entered) :=
  inferInstanceAs (Decidable (_ ∧ _))

def SecretsEvent.change : SecretsEvent → Key → Change
  | .install args interactive entered, .webPassword =>
    match args.webPassword with
    | some s => .ofFlag s
    | none => if interactive then .ofEntry entered.webPassword else .keep
  | .install args interactive entered, .email =>
    match args.email with
    | some s => .ofEntry s
    | none => if interactive then .ofEntry (PyText.strip entered.email) else .keep
  | .install args interactive entered, .password =>
    match args.password with
    | some s => .ofFlag s
    | none => if Asked args interactive entered then .ofEntry entered.password else .keep
  | .save email _, .email => .ofEntry email
  | .save _ password, .password => .ofEntry password
  | .install _ _ _, .webUsername | .save _ _, .webUsername | .save _ _, .webPassword => .keep

def Given.after (g : Given) (e : SecretsEvent) : Given := fun key => (e.change key).apply (g key)

/-- What was given last for each key, starting from no file. -/
def givenLast (es : List SecretsEvent) : Given := es.foldl Given.after fun _ => none

/-! ## What the readers return -/

/-- No variable is set. -/
def unset : Environ := fun _ => .none

def valueOf : Option (List Char) → PyValue
  | some s => .str (PyStr.ofChars s)
  | none => .none

/-- The file parses, and both readers return what was given. -/
structure Shows (beyond : TomlRest) (g : Given) (secrets : File) : Prop where
  parses : ∃ data, loadExisting beyond secrets = some data
  account : loadSecrets beyond unset secrets = some (valueOf (g .email), valueOf (g .password))
  webAuth : loadWebAuth beyond unset secrets =
    some (valueOf (some ((g .webUsername).getD "luba".toList)), valueOf (g .webPassword))

/-- Saving the account does not touch the login. -/
def KeepsLogin (beyond : TomlRest) (newline : PyText.Newline) (secrets : File) (e : SecretsEvent) : Prop :=
  ∀ email password, e = .save email password → ∀ next, secretsStep beyond newline secrets e = some next →
    loadWebAuth beyond unset next = loadWebAuth beyond unset secrets

/-- What the installer can quote: no control character but the tab. -/
def Printable (s : List Char) : Prop := ∀ c ∈ s, Toml.isIllegal c = false

instance (s : List Char) : Decidable (Printable s) := List.decidableBAll _ _

/-- The condition on a step, by what was given before it. -/
def Fits (g : Given) : SecretsEvent → Prop
  | .install args interactive entered =>
    (args.password ≠ none → args.email ≠ none) ∧
      ∀ key, ∀ s ∈ g.after (.install args interactive entered) key, Printable s
  | .save email password =>
    email ≠ [] ∧ password ≠ [] ∧ ∀ key, ∀ s ∈ g.after (.save email password) key, Clean s

/-! ## What is in the file -/

/-- A value that is written for what was given. -/
def Means (v : PyValue) (o : Option (List Char)) : Prop :=
  (v.truthy = false ∧ o = none) ∨ ∃ s, s ≠ [] ∧ v = .str (PyStr.ofChars s) ∧ o = some s

/-- The file has the values that were given. -/
def Holds (beyond : TomlRest) (g : Given) (secrets : File) : Prop :=
  ∃ data, loadExisting beyond secrets = some data ∧ ∀ key : Key, ∃ v, data.get? key.name = some v ∧ Means v (g key)

variable {beyond : TomlRest} {newline : PyText.Newline} {g : Given} {secrets next : File} {e : SecretsEvent}
  {v w : PyValue} {o : Option (List Char)} {s : List Char} {es : List SecretsEvent}

theorem truthy_ofChars (s : List Char) : (PyValue.str (PyStr.ofChars s)).truthy = decide (s ≠ []) := by
  cases s <;> rfl

theorem Means.or_none (means : Means v o) : v.or .none = valueOf o := by
  rcases means with ⟨falsy, rfl⟩ | ⟨s, nonempty, rfl, rfl⟩
  · simp [PyValue.or, falsy, valueOf]
  · simp [PyValue.or, truthy_ofChars, nonempty, valueOf]

theorem none_or (v : PyValue) : PyValue.none.or v = v := rfl

/-- The readers return what the file has. -/
theorem Holds.shows (holds : Holds beyond g secrets) : Shows beyond g secrets := by
  obtain ⟨data, loaded, values⟩ := holds
  obtain ⟨email, hasEmail, isEmail⟩ := values .email
  obtain ⟨password, hasPassword, isPassword⟩ := values .password
  obtain ⟨webUsername, hasUsername, isUsername⟩ := values .webUsername
  obtain ⟨webPassword, hasWebPassword, isWebPassword⟩ := values .webPassword
  refine ⟨⟨data, loaded⟩, ?_, ?_⟩
  · simp only [Key.name] at hasEmail hasPassword
    simp only [loadSecrets, loaded, hasEmail, hasPassword, Option.bind_eq_bind, Option.bind_some, unset,
      isEmail.or_none, isPassword.or_none]
  · have username :
        webUsername.or (.str (PyStr.lit "luba")) = valueOf (some ((g .webUsername).getD "luba".toList)) := by
      rcases isUsername with ⟨falsy, none⟩ | ⟨s, nonempty, rfl, given⟩
      · simp [PyValue.or, falsy, none, valueOf, PyStr.lit]
      · simp [PyValue.or, truthy_ofChars, nonempty, given, valueOf]
    simp only [Key.name] at hasUsername hasWebPassword
    simp only [loadWebAuth, unset, PyValue.truthy, Bool.false_eq_true, and_self, if_false, loaded, hasUsername,
      hasWebPassword, Option.bind_eq_bind, Option.bind_some, none_or, username, isWebPassword.or_none]

/-! ## The text of the file -/

section Text

variable {esc : Char → List Char} {header : List String} {lines : List (List Char)}

def Key.label : Key → String
  | email => "email    = "
  | password => "password = "
  | webUsername => "web_username = "
  | webPassword => "web_password = "

theorem Key.isLabel : ∀ key : Key, Label key.label.toList key.name.toList
  | email => ⟨PyText.forall_of_all (by decide), by decide, 4, by decide⟩
  | password => ⟨PyText.forall_of_all (by decide), by decide, 1, by decide⟩
  | webUsername => ⟨PyText.forall_of_all (by decide), by decide, 1, by decide⟩
  | webPassword => ⟨PyText.forall_of_all (by decide), by decide, 1, by decide⟩

/-- The keys in the order of the file. -/
def Key.all : List Key := [email, password, webUsername, webPassword]

def keyLine (esc : Char → List Char) (key : Key) : Option (List Char) → List (List Char)
  | some s => [key.label.toList ++ Toml.quote esc s]
  | none => []

def storeLines (esc : Char → List Char) (g : Given) : List (List Char) :=
  Key.all.flatMap fun key => keyLine esc key (g key)

def keyEntry (key : Key) : Option (List Char) → List (List Char × Toml.Value PyValue)
  | some s => [(key.name.toList, .string s)]
  | none => []

def storeEntries (g : Given) : List (List Char × Toml.Value PyValue) := Key.all.flatMap fun key => keyEntry key (g key)

/-- The text of some lines, all of which end. -/
def endLines (lines : List (List Char)) : List Char := lines.flatMap (· ++ ['\n'])

/-- A quoter writes the text so that it is read, on one line. -/
structure Quotes (esc : Char → List Char) (s : List Char) : Prop where
  reads : ∀ c ∈ s, Toml.Reads (esc c) c
  oneLine : ∀ c ∈ s, OneLine (esc c)

theorem endLines_eq_intercalate (lines : List (List Char)) : endLines lines = ['\n'].intercalate (lines ++ [[]]) := by
  induction lines with
  | nil => rfl
  | cons line lines ih =>
    rw [List.cons_append, List.intercalate_cons_of_ne_nil (by simp), ← ih]
    simp [endLines]

theorem splitOn_endLines (oneLine : ∀ line ∈ lines, OneLine line) : (endLines lines).splitOn '\n' = lines ++ [[]] := by
  rw [endLines_eq_intercalate]
  refine List.splitOn_intercalate _ (fun line inside => ?_) (by simp)
  rcases List.mem_append.mp inside with inside | inside
  · exact (oneLine line inside).1
  · rw [List.mem_singleton.mp inside]
    exact List.not_mem_nil

/-- A file of lines that end is read line by line. -/
theorem load_endLines (oneLine : ∀ line ∈ lines, OneLine line) :
    Toml.load beyond (Utf8.encode (newline.translate (endLines lines))) =
      Toml.readLines beyond ⟨.empty, none⟩ (lines ++ [[]]) := by
  rw [Toml.load_translate, splitOn_endLines oneLine]
  intro inside
  obtain ⟨line, mem, inside⟩ := List.mem_flatMap.mp inside
  rcases List.mem_append.mp inside with here | end_
  · exact (oneLine line mem).2 here
  · exact absurd end_ (by decide)

theorem statements_store (quotes : ∀ key, ∀ s ∈ g key, Quotes esc s) :
    (storeLines esc g).map (Toml.statement (α := PyValue)) =
      (storeEntries g).map fun entry => .pair entry.1 entry.2 := by
  rw [storeLines, storeEntries, List.map_flatMap, List.map_flatMap]
  refine List.flatMap_congr fun key _ => ?_
  cases given : g key with
  | none => rfl
  | some s =>
    rw [keyLine, List.map_singleton, statement_label key.isLabel,
      Toml.pair_quote_of_reads (quotes key s given).reads]
    rfl

theorem storeEntries_distinct (g : Given) : ((storeEntries g).map Prod.fst).Nodup := by
  have names : ((storeEntries g).map Prod.fst).Sublist (Key.all.map fun key => key.name.toList) := by
    rw [storeEntries, List.map_flatMap, List.map_eq_flatMap]
    refine List.Sublist.flatMap_right _ fun key _ => ?_
    cases g key with
    | none => exact List.nil_sublist _
    | some s => exact List.Sublist.refl _
  exact names.nodup (by decide)

/-- What `tomllib` makes of the keys. -/
def storeItems (g : Given) : List (PyStr × PyValue) :=
  (storeEntries g).map fun entry => (PyStr.ofChars entry.1, ofTomlValue entry.2)

theorem lookup_storeItems (g : Given) (key : Key) :
    ((storeItems g).lookup (PyStr.lit key.name)).getD .none = valueOf (g key) := by
  have piece : ∀ other : Key, ((keyEntry other (g other)).map fun entry =>
      (PyStr.ofChars entry.1, ofTomlValue entry.2)).lookup (PyStr.lit key.name) =
        if key = other then (g key).map fun s => .str (PyStr.ofChars s) else none := by
    intro other
    have same : (PyStr.lit key.name == PyStr.ofChars other.name.toList) = decide (key = other) := by
      cases key <;> cases other <;> decide
    cases given : g other with
    | none =>
      split_ifs with here
      · rw [here, given]
        rfl
      · rfl
    | some s =>
      rw [keyEntry, List.map_singleton, List.lookup_cons, same]
      split_ifs with here
      · rw [here, given, decide_eq_true rfl]
        rfl
      · rw [decide_eq_false here]
        rfl
  rw [storeItems, storeEntries, List.map_flatMap, Key.all]
  simp only [List.flatMap_cons, List.flatMap_nil, List.append_nil, List.lookup_append, piece]
  cases key <;> cases g _ <;> rfl

theorem oneLine_storeLines (each : ∀ key, ∀ s ∈ g key, ∀ c ∈ s, OneLine (esc c)) :
    ∀ line ∈ storeLines esc g, OneLine line := by
  intro line inside
  obtain ⟨key, _, inside⟩ := List.mem_flatMap.mp inside
  cases given : g key with
  | none =>
    rw [given] at inside
    cases inside
  | some s =>
    rw [given] at inside
    rw [List.mem_singleton.mp inside]
    refine oneLine_append ?_ (oneLine_quote (each key s given))
    cases key <;> decide

/-- The file of a store. -/
def storeFile (newline : PyText.Newline) (header : List String) (esc : Char → List Char) (g : Given) : List UInt8 :=
  Utf8.encode (newline.translate (endLines (header.map String.toList ++ storeLines esc g)))

/-- The lines at the start of a file are comments. -/
def Comments (header : List String) : Prop :=
  ∀ line ∈ header.map String.toList, Toml.statement (α := PyValue) line = .nothing ∧ OneLine line

/-- A file of a store is read line by line. -/
theorem load_storeFile (comments : Comments header) (each : ∀ key, ∀ s ∈ g key, ∀ c ∈ s, OneLine (esc c)) :
    Toml.load beyond (storeFile newline header esc g) =
      Toml.readLines beyond ⟨.empty, none⟩ (header.map String.toList ++ storeLines esc g ++ [[]]) :=
  load_endLines (List.forall_mem_append.mpr ⟨fun line inside => (comments line inside).2, oneLine_storeLines each⟩)

/-- The lines of a store are read as its values. -/
theorem loadExisting_store (comments : Comments header) (quotes : ∀ key, ∀ s ∈ g key, Quotes esc s) :
    loadExisting beyond (some (storeFile newline header esc g)) = some (.dict (storeItems g)) := by
  have blank : Toml.statement (α := PyValue) [] = .nothing := rfl
  have read : Toml.readLines beyond ⟨.empty, none⟩ (header.map String.toList ++ storeLines esc g ++ [[]]) =
      some (.ofPairs ((storeEntries g).map fun entry => (entry.1, .value entry.2))) := by
    rw [List.append_assoc, Toml.readLines_nothing fun line inside => (comments line inside).1,
      Toml.readLines_pairs (statements_store quotes), Toml.Document.root_assigns (storeEntries_distinct g),
      Option.bind_some, Toml.readLines_cons blank nofun, Toml.Document.step]
    rfl
  have distinct : (((storeEntries g).map fun entry => (entry.1, Toml.Item.value entry.2)).map Prod.fst).Nodup := by
    rw [List.map_map]
    exact storeEntries_distinct g
  rw [loadExisting, tomlLoad, load_storeFile comments fun key s given => (quotes key s given).oneLine, read,
    Option.map_some, OrderedDict.ofPairs_items distinct, List.map_map]
  rfl

/-- A file of a store holds it. -/
theorem holds_store (beyond : TomlRest) (newline : PyText.Newline) (comments : Comments header)
    (quotes : ∀ key, ∀ s ∈ g key, Quotes esc s) (filled : ∀ key, ∀ s ∈ g key, s ≠ []) :
    Holds beyond g (some (storeFile newline header esc g)) := by
  refine ⟨_, loadExisting_store comments quotes, fun key => ⟨valueOf (g key), ?_, ?_⟩⟩
  · rw [PyValue.get?, PyValue.getD?, lookup_storeItems]
  · cases given : g key with
    | none => exact .inl ⟨rfl, rfl⟩
    | some s => exact .inr ⟨s, filled key s given, rfl, rfl⟩

end Text

/-! ## What is written -/

section Writers

variable {esc : Char → List Char} {quote : PyValue → Option PyStr} {args : InstallArgs} {interactive : Bool}
  {entered : Entered} {email password : List Char} {existing first second : PyValue}

theorem means_none : Means .none none := .inl ⟨rfl, rfl⟩

/-- An entry that may be left blank replaces a value. -/
theorem means_entry (s : List Char) (means : Means v o) :
    Means ((PyValue.str (PyStr.ofChars s)).or v) ((Change.ofEntry s).apply o) := by
  rw [PyValue.or, truthy_ofChars, Change.ofEntry]
  by_cases empty : s = []
  · rw [if_neg (by simp [empty]), if_pos empty]
    exact means
  · rw [if_pos (by simp [empty]), if_neg empty]
    exact .inr ⟨s, empty, rfl, rfl⟩

/-- A flag replaces a value, or removes it. -/
theorem means_flag (s : List Char) (o : Option (List Char)) :
    Means (.str (PyStr.ofChars s)) ((Change.ofFlag s).apply o) := by
  rw [Change.ofFlag]
  split_ifs with empty
  · subst empty
    exact .inl ⟨rfl, rfl⟩
  · exact .inr ⟨s, empty, rfl, rfl⟩

theorem Means.or (left : Means v o) : Means (v.or .none) o := by
  rw [left.or_none]
  rcases left with ⟨_, rfl⟩ | ⟨s, nonempty, _, rfl⟩
  · exact means_none
  · exact .inr ⟨s, nonempty, rfl, rfl⟩

theorem means_chosenWebPassword (args : InstallArgs) (interactive : Bool) (entered : Entered)
    (means : Means v (g .webPassword)) :
    Means (chosenWebPassword args interactive entered v)
      (g.after (.install args interactive entered) .webPassword) := by
  rw [chosenWebPassword, Given.after, SecretsEvent.change]
  cases args.webPassword with
  | some s => exact (means_flag s _).or
  | none =>
    cases interactive with
    | false => exact means
    | true =>
      by_cases blank : entered.webPassword = []
      · simp only [blank, ne_eq, not_true_eq_false, and_false, if_false, if_true, Change.ofEntry]
        exact means
      · simp only [blank, ne_eq, not_false_eq_true, and_true, if_true, if_false, Change.ofEntry]
        exact .inr ⟨_, blank, rfl, rfl⟩

/-- The account follows what was given if a password does not come without an email address. -/
theorem means_chosenAccount (interactive : Bool) (entered : Entered)
    (flags : args.password ≠ none → args.email ≠ none) (isEmail : Means v (g .email))
    (isPassword : Means w (g .password)) :
    Means (chosenAccount args interactive entered v w).1 (g.after (.install args interactive entered) .email) ∧
      Means (chosenAccount args interactive entered v w).2 (g.after (.install args interactive entered) .password) := by
  rw [chosenAccount, Given.after, Given.after, SecretsEvent.change, SecretsEvent.change]
  cases email : args.email with
  | some s =>
    refine ⟨means_entry s isEmail, ?_⟩
    cases args.password with
    | some t => exact means_flag t _
    | none =>
      have entry : ¬ Asked args interactive entered := fun asked => by
        rw [Asked, email] at asked
        exact nomatch asked.1
      simp only [if_neg entry]
      exact isPassword
  | none =>
    have without : args.password = none := by
      by_contra given
      exact flags given email
    rw [without]
    by_cases asked : interactive = true ∧ PyText.strip entered.email ≠ []
    · have entry : Asked args interactive entered := ⟨email, asked⟩
      simp only [if_pos asked, if_pos asked.1, if_pos entry]
      refine ⟨?_, means_entry _ isPassword⟩
      rw [Change.ofEntry, if_neg asked.2]
      exact .inr ⟨_, asked.2, rfl, rfl⟩
    · have entry : ¬ Asked args interactive entered := fun entry => asked entry.2
      simp only [if_neg asked, if_neg entry]
      refine ⟨?_, isPassword⟩
      cases interactive with
      | false => exact isEmail
      | true =>
        have blank : PyText.strip entered.email = [] := by simpa using asked
        simp only [if_true, Change.ofEntry, if_pos blank]
        exact isEmail

theorem endLines_append (first second : List (List Char)) :
    endLines (first ++ second) = endLines first ++ endLines second := List.flatMap_append

theorem optionalKey_of_means (quoter : ∀ s, quote (.str (PyStr.ofChars s)) = some (PyStr.ofChars (Toml.quote esc s)))
    (means : Means v o) (key : Key) :
    optionalKey quote key.label v = some (PyStr.ofChars (endLines (keyLine esc key o))) := by
  rw [optionalKey]
  rcases means with ⟨falsy, rfl⟩ | ⟨s, nonempty, rfl, rfl⟩
  · rw [if_neg (by simp [falsy])]
    rfl
  · rw [if_pos (by simp [truthy_ofChars, nonempty]), quoter, keyLine, endLines]
    simp [PyStr.lit, PyStr.ofChars]

/-! ### The quoter of the installer -/

/-- The two replacements at once. -/
def installEscape (c : Char) : List Char :=
  if c = '\\' then ['\\', '\\'] else if c = '"' then ['\\', '"'] else [c]

theorem installQuote_ofChars (s : List Char) :
    installQuote (.str (PyStr.ofChars s)) = some (PyStr.ofChars (Toml.quote installEscape s)) := by
  have both : ((PyStr.ofChars s).replace '\\' ['\\', '\\']).replace '"' ['\\', '"'] =
      PyStr.ofChars (s.flatMap installEscape) := by
    rw [PyStr.replace, PyStr.replace, List.flatMap_assoc]
    simp only [PyStr.ofChars, List.flatMap_map, List.map_flatMap]
    refine List.flatMap_congr fun c _ => ?_
    simp only [installEscape, PyChar.char.injEq]
    split_ifs with backslash quote
    · rfl
    · subst quote
      rfl
    · rw [List.flatMap_singleton, if_neg fun same => quote (PyChar.char.inj same)]
      rfl
  rw [installQuote, both, Toml.quote]
  simp [PyStr.lit, PyStr.ofChars]

theorem quotes_install (printable : Printable s) : Quotes installEscape s := by
  constructor <;> intro c inside <;> rw [installEscape] <;> split_ifs with backslash quote
  · subst backslash
    exact Toml.reads_escape (by decide) (by decide) (by decide)
  · subst quote
    exact Toml.reads_escape (by decide) (by decide) (by decide)
  · exact Toml.reads_self (printable c inside) quote backslash
  · decide
  · decide
  · have legal := printable c inside
    constructor <;> intro same <;> rw [← List.mem_singleton.mp same] at legal <;> exact absurd legal (by decide)

theorem quotes_persist (clean : Clean s) : Quotes escapeChar s :=
  ⟨fun _ inside => escapeChar_reads fun del => clean (del ▸ inside), fun c _ => oneLine_escapeChar c⟩

/-! ### The two writers -/

theorem Means.nonempty (means : Means v o) : ∀ s ∈ o, s ≠ [] := by
  rintro s given
  rcases means with ⟨_, none⟩ | ⟨t, nonempty, _, same⟩
  · rw [none] at given
    cases given
  · rw [same] at given
    cases given
    exact nonempty

/-- The keys one after the other. -/
theorem endLines_storeLines (esc : Char → List Char) (g : Given) :
    endLines (storeLines esc g) = endLines (keyLine esc .email (g .email)) ++
      endLines (keyLine esc .password (g .password)) ++ endLines (keyLine esc .webUsername (g .webUsername)) ++
      endLines (keyLine esc .webPassword (g .webPassword)) := by
  simp only [storeLines, Key.all, List.flatMap_cons, List.flatMap_nil, endLines_append, List.append_nil,
    List.append_assoc]

theorem commentLines_eq (header : List String) :
    commentLines header = PyStr.ofChars (endLines (header.map String.toList)) := by
  simp [commentLines, endLines, PyStr.lit, PyStr.ofChars, List.flatMap_map, List.map_flatMap]

theorem installHeader_comments : Comments installHeader :=
  List.forall_mem_singleton.mpr ⟨Toml.statement_comment (by simp) (by simp [Toml.isIllegal]), by simp [OneLine]⟩

theorem secretsHeader_comments : Comments secretsHeader :=
  List.forall_mem_cons.mpr ⟨⟨Toml.statement_comment (by simp) (by simp [Toml.isIllegal]), by simp [OneLine]⟩,
    List.forall_mem_singleton.mpr ⟨Toml.statement_comment (by simp) (by simp [Toml.isIllegal]), by simp [OneLine]⟩⟩

/-- The texts that `save_secrets` writes. -/
structure AccountText (existing email password : PyValue) (g : Given) : Prop where
  email : ∃ text, email.text? = some text ∧ g .email = some text
  password : ∃ text, password.text? = some text ∧ g .password = some text
  webUsername : ∃ v, existing.get? "web_username" = some v ∧ optionalText? v = some (g .webUsername)
  webPassword : ∃ v, existing.get? "web_password" = some v ∧ optionalText? v = some (g .webPassword)

theorem optionalKey_of_text (key : Key) {o : Option (List Char)} (text : optionalText? v = some o) :
    optionalKey tomlQuote key.label v = some (PyStr.ofChars (endLines (keyLine escapeChar key o))) := by
  rw [optionalText?] at text
  rw [optionalKey]
  split_ifs at text ⊢
  · obtain ⟨chars, is, rfl⟩ := Option.map_eq_some_iff.mp text
    rw [tomlQuote_of_text? is, keyLine, endLines]
    simp [PyStr.lit, PyStr.ofChars]
  · cases text
    rfl

/-- Credentials with texts are written. -/
theorem saveSecrets_of_text (loaded : loadExisting beyond secrets = some existing)
    (text : AccountText existing first second g) :
    saveSecrets beyond newline secrets first second =
      some (storeFile newline secretsHeader escapeChar g) := by
  obtain ⟨e, isEmail, afterEmail⟩ := text.email
  obtain ⟨w, isPassword, afterPassword⟩ := text.password
  obtain ⟨username, hasUsername, isUsername⟩ := text.webUsername
  obtain ⟨webPassword, hasWebPassword, isWebPassword⟩ := text.webPassword
  have third := optionalKey_of_text .webUsername isUsername
  have fourth := optionalKey_of_text .webPassword isWebPassword
  simp only [Key.label] at third fourth
  have lines : saveSecrets beyond newline secrets first second =
      writeText newline (commentLines secretsHeader ++ PyStr.ofChars (endLines (storeLines escapeChar g))) := by
    simp only [saveSecrets, loaded, hasUsername, hasWebPassword, third, fourth, tomlQuote_of_text? isEmail,
      tomlQuote_of_text? isPassword, Option.bind_eq_bind, Option.bind_some, endLines_storeLines, afterEmail,
      afterPassword, PyStr.ofChars_append, List.append_assoc]
    simp only [keyLine, endLines, Key.label, List.flatMap_cons, List.flatMap_nil, List.append_nil,
      PyStr.ofChars_append, List.append_assoc]
    rfl
  rw [lines, commentLines_eq, ← PyStr.ofChars_append,
    ← endLines_append, writeText, PyStr.chars?_ofChars]
  rfl

/-- The installer leaves what was given in the file. -/
theorem setupSecrets_holds (newline : PyText.Newline) (holds : Holds beyond g secrets)
    (fits : Fits g (.install args interactive entered)) :
    ∃ bytes, setupSecrets beyond newline args interactive entered secrets = some bytes ∧
      Holds beyond (g.after (.install args interactive entered)) (some bytes) := by
  obtain ⟨data, loaded, values⟩ := holds
  obtain ⟨email, hasEmail, isEmail⟩ := values .email
  obtain ⟨password, hasPassword, isPassword⟩ := values .password
  obtain ⟨webUsername, hasUsername, isUsername⟩ := values .webUsername
  obtain ⟨webPassword, hasWebPassword, isWebPassword⟩ := values .webPassword
  simp only [Key.name] at hasEmail hasPassword hasUsername hasWebPassword
  obtain ⟨flags, printable⟩ := fits
  have account := means_chosenAccount interactive entered flags isEmail isPassword
  have web := means_chosenWebPassword args interactive entered isWebPassword
  have writes := fun {v o} => optionalKey_of_means (v := v) (o := o) installQuote_ofChars
  have quotes := fun key s given => quotes_install (printable key s given)
  refine ⟨_, ?_, holds_store beyond newline installHeader_comments quotes ?_⟩
  · have lines : setupSecrets beyond newline args interactive entered secrets =
        writeText newline (commentLines installHeader ++
          PyStr.ofChars (endLines (storeLines installEscape (g.after (.install args interactive entered))))) := by
      have first := writes account.1 .email
      have second := writes account.2 .password
      have third := writes isUsername .webUsername
      have fourth := writes web .webPassword
      simp only [Key.label] at first second third fourth
      simp only [setupSecrets, loaded, hasEmail, hasPassword, hasUsername, hasWebPassword, first, second, third, fourth,
        Option.bind_eq_bind, Option.bind_some, endLines_storeLines, PyStr.ofChars_append, List.append_assoc]
      rfl
    rw [lines, commentLines_eq, ← PyStr.ofChars_append,
      ← endLines_append, writeText, PyStr.chars?_ofChars]
    rfl
  · rintro (_ | _ | _ | _)
    · exact account.1.nonempty
    · exact account.2.nonempty
    · exact isUsername.nonempty
    · exact web.nonempty

theorem optionalText?_of_means (means : Means v o) : optionalText? v = some o := by
  rcases means with ⟨falsy, rfl⟩ | ⟨s, nonempty, rfl, rfl⟩
  · rw [optionalText?, if_neg (by simp [falsy])]
  · rw [optionalText?, if_pos (by simp [truthy_ofChars, nonempty]), PyValue.text?_str, PyStr.chars?_ofChars,
      Option.map_some]

/-- The server leaves what was given in the file. -/
theorem saveSecrets_holds (newline : PyText.Newline) (holds : Holds beyond g secrets)
    (fits : Fits g (.save email password)) :
    ∃ bytes, saveSecrets beyond newline secrets (.str (PyStr.ofChars email)) (.str (PyStr.ofChars password)) =
      some bytes ∧ Holds beyond (g.after (.save email password)) (some bytes) := by
  obtain ⟨data, loaded, values⟩ := holds
  obtain ⟨webUsername, hasUsername, isUsername⟩ := values .webUsername
  obtain ⟨webPassword, hasWebPassword, isWebPassword⟩ := values .webPassword
  obtain ⟨someEmail, somePassword, clean⟩ := fits
  have afterEmail : g.after (.save email password) .email = some email := by
    rw [Given.after, SecretsEvent.change, Change.ofEntry, if_neg someEmail, Change.apply]
  have afterPassword : g.after (.save email password) .password = some password := by
    rw [Given.after, SecretsEvent.change, Change.ofEntry, if_neg somePassword, Change.apply]
  have text : AccountText data (.str (PyStr.ofChars email)) (.str (PyStr.ofChars password))
      (g.after (.save email password)) :=
    { email := ⟨email, by rw [PyValue.text?_str, PyStr.chars?_ofChars], afterEmail⟩
      password := ⟨password, by rw [PyValue.text?_str, PyStr.chars?_ofChars], afterPassword⟩
      webUsername := ⟨webUsername, hasUsername, optionalText?_of_means isUsername⟩
      webPassword := ⟨webPassword, hasWebPassword, optionalText?_of_means isWebPassword⟩ }
  refine ⟨_, saveSecrets_of_text loaded text,
    holds_store beyond newline secretsHeader_comments (fun key s given => quotes_persist (clean key s given)) ?_⟩
  rintro (_ | _ | _ | _) s given
  · rw [afterEmail] at given
    cases given
    exact someEmail
  · rw [afterPassword] at given
    cases given
    exact somePassword
  · exact isUsername.nonempty s given
  · exact isWebPassword.nonempty s given

/-- A step that fits leaves what was given in the file. -/
theorem secretsStep_holds (holds : Holds beyond g secrets) (fits : Fits g e)
    (stepped : secretsStep beyond newline secrets e = some next) : Holds beyond (g.after e) next := by
  cases e with
  | install args interactive entered =>
    obtain ⟨bytes, written, after⟩ := setupSecrets_holds newline holds fits
    rw [secretsStep, written] at stepped
    cases stepped
    exact after
  | save email password =>
    obtain ⟨bytes, written, after⟩ := saveSecrets_holds newline holds fits
    rw [secretsStep, written] at stepped
    cases stepped
    exact after

end Writers

/-! ## Runs -/

theorem givenLast_concat (es : List SecretsEvent) (e : SecretsEvent) :
    givenLast (es ++ [e]) = (givenLast es).after e := List.foldl_concat ..

theorem holds_start (beyond : TomlRest) : Holds beyond (givenLast []) none :=
  ⟨.dict [], rfl, fun _ => ⟨.none, rfl, means_none⟩⟩

/-- Both files of a save show the same login. -/
theorem keepsLogin_of_holds (holds : Holds beyond g secrets) (fits : Fits g e) :
    KeepsLogin beyond newline secrets e := by
  rintro email password rfl next stepped
  have after := (secretsStep_holds holds fits stepped).shows.webAuth
  have before := holds.shows.webAuth
  exact after.trans before.symm

/-- In a run whose steps all fit, the file always shows what was given last, and saves keep the login. -/
theorem secrets_show_last (beyond : TomlRest) (newline : PyText.Newline) (es : List SecretsEvent)
    (fits : Meets (secretsStep beyond newline) (fun before _ e => Fits (givenLast before) e) none es) :
    Throughout (secretsStep beyond newline) (fun before secrets => Shows beyond (givenLast before) secrets) none es ∧
      Meets (secretsStep beyond newline) (fun _ secrets e => KeepsLogin beyond newline secrets e) none es := by
  have holds : Throughout (secretsStep beyond newline) (fun before secrets => Holds beyond (givenLast before) secrets)
      none es := by
    refine throughout_of_meets (holds_start beyond) (fun before secrets e next holds fits stepped => ?_) fits
    rw [givenLast_concat]
    exact secretsStep_holds holds fits stepped
  constructor
  · exact fun before inside secrets reached => (holds before inside secrets reached).shows
  · intro before e inside secrets reached
    exact keepsLogin_of_holds (holds before ((List.prefix_append before [e]).trans inside) secrets reached)
      (fits before e inside secrets reached)

/-- The installer sets a web password, the server saves an account, and the installer is run again. -/
def exampleRun : List SecretsEvent :=
  [.install ⟨some "gate \"7\" \\".toList, none, none⟩ false ⟨[], [], []⟩,
    .save "owner@example.com".toList "p\"\\w".toList,
    .install ⟨some [], none, none⟩ true ⟨[], [], []⟩]

theorem exampleRun_fits (n : ℕ) (e : SecretsEvent) (at_ : exampleRun[n]? = some e) :
    Fits (givenLast (exampleRun.take n)) e := by
  rcases n with _ | _ | _ | n
  · cases at_
    exact ⟨nofun, by rintro (_ | _ | _ | _) <;> decide⟩
  · cases at_
    exact ⟨by decide, by decide, by rintro (_ | _ | _ | _) <;> decide⟩
  · cases at_
    exact ⟨nofun, by rintro (_ | _ | _ | _) <;> decide⟩
  · cases at_

theorem secrets_show_last_exampleRun :
    Throughout (secretsStep (fun _ _ => none) .lf)
        (fun before secrets => Shows (fun _ _ => none) (givenLast before) secrets) none exampleRun ∧
      Meets (secretsStep (fun _ _ => none) .lf) (fun _ secrets e => KeepsLogin (fun _ _ => none) .lf secrets e) none
        exampleRun :=
  secrets_show_last _ _ exampleRun (.of_getElem fun n e at_ _ _ => exampleRun_fits n e at_)

/-- A web password of two lines is written on two lines, and the file cannot be read. -/
theorem twoLines_unreadable :
    ¬ ∀ es : List SecretsEvent,
        Throughout (secretsStep (fun _ _ => none) .lf)
          (fun before secrets => Shows (fun _ _ => none) (givenLast before) secrets) none es ∧
        Meets (secretsStep (fun _ _ => none) .lf) (fun _ secrets e => KeepsLogin (fun _ _ => none) .lf secrets e) none
          es := by
  intro all
  let args : InstallArgs := ⟨some "two\nlines".toList, none, none⟩
  have last := (all [.install args false ⟨[], [], []⟩]).1 _ (List.prefix_refl _) _ rfl
  obtain ⟨data, parses⟩ := last.parses
  have refused : (setupSecrets (fun _ _ => none) .lf args false ⟨[], [], []⟩ none).bind
      (fun bytes => loadExisting (fun _ _ => none) (some bytes)) = none := rfl
  cases refused.symm.trans parses

end MammotionRc.Server
