import MammotionRc.Server.OnboardSave
import MammotionRc.Soundness.RosterRoundTrip
import MammotionRc.Soundness.SecretsShared

/-! # All of a save or nothing

The handler writes the credentials before it knows whether the roster can be written, and neither writer looks at what
its reader will make of the file. So a request is all or nothing if the roster can be written, or no credentials are,
and the strings of an accepted request are strings, without the character that the files cannot have.
-/

namespace MammotionRc.Server

open Machine

variable {Live : Type*} {beyond : TomlRest} {newline : PyText.Newline} {swap : List Row → Live → Live}
  {site after : Site Live} {payload existing v : PyValue} {p : Prepared} {m : Row} {t : RowText} {norm : List Row}
  {texts : List RowText} {g : Given} {bytes : List UInt8} {email password : PyValue} {secrets : File} {s : PyStr}

/-! ## The property -/

/-- Nothing that a save writes has changed. -/
structure Unchanged (before after : Site Live) : Prop where
  secrets : after.secrets = before.secrets
  roster : after.roster = before.roster
  mowers : after.mowers = before.mowers
  live : after.live = before.live

/-- The roster, and the credentials if there are any, are where they belong. -/
structure Stored (beyond : TomlRest) (p : Prepared) (after : Site Live) : Prop where
  roster : loadMowers beyond after.roster = some p.norm
  mowers : after.mowers = p.norm
  account : p.HasAccount → ∃ data, loadExisting beyond after.secrets = some data ∧
    data.get? "email" = some (.str p.email) ∧ data.get? "password" = some p.password

/-- A request that is refused changes nothing, and one that is answered is stored. -/
def Atomic (beyond : TomlRest) (newline : PyText.Newline) (swap : List Row → Live → Live) (site : Site Live)
    (payload : PyValue) : Prop :=
  match onboardSave beyond newline swap site payload with
  | (.error _, after) => Unchanged site after
  | (.ok _, after) => ∃ p, prepare site payload = .ok p ∧ Stored beyond p after

/-! ## The condition -/

/-- A string without a DEL. -/
def PlainString : PyValue → Prop
  | .str s => PyChar.char '\x7F' ∉ s
  | _ => False

/-- A string, or a container that looks like one, without lone surrogates. -/
def Textual (v : PyValue) : Prop := ∃ text, v.text? = some text

structure Row.Writable (m : Row) : Prop where
  name : Textual m.name
  nickname : m.nickname.truthy = true → Textual m.nickname
  hc33Host : Textual m.hc33Host
  hc33Port : (Nat.toDigits 10 m.hc33Port.natAbs).length ≤ PyInt.maxStrDigits
  iotId : m.iotId.truthy = true → Textual m.iotId

structure Row.Plain (m : Row) : Prop where
  name : PlainString m.name
  nickname : m.nickname.truthy = true → PlainString m.nickname
  hc33Host : PlainString m.hc33Host
  iotId : m.iotId.truthy = true → PlainString m.iotId

/-- The values of the login that is kept. -/
def KeptLogin (existing : PyValue) (P : PyValue → Prop) : Prop :=
  ∀ key ∈ ["web_username", "web_password"], ∃ v, existing.get? key = some v ∧ (v.truthy = true → P v)

/-- The file before can be read, and what is kept of it and the credentials have texts. -/
def AccountWritable (beyond : TomlRest) (secrets : File) (p : Prepared) : Prop :=
  ∃ existing, loadExisting beyond secrets = some existing ∧ Textual (.str p.email) ∧ Textual p.password ∧
    KeptLogin existing Textual

/-- None of the texts that are written with the credentials has a DEL, and the password is a string. -/
def AccountPlain (beyond : TomlRest) (secrets : File) (p : Prepared) : Prop :=
  PlainString (.str p.email) ∧ PlainString p.password ∧ ∀ existing, loadExisting beyond secrets = some existing →
    KeptLogin existing fun v => ∀ text, v.text? = some text → Clean text

/-- What the handler has prepared can be saved as a whole, or is refused as a whole: the credentials cannot be written,
or the roster cannot and the credentials are none or the same as before, or everything can be written and read. -/
def Prepared.Safe (beyond : TomlRest) (newline : PyText.Newline) (secrets : File) (p : Prepared) : Prop :=
  (p.HasAccount ∧ ¬ AccountWritable beyond secrets p) ∨
    ((¬ ∀ m ∈ p.norm, m.Writable) ∧
      (p.HasAccount → saveSecrets beyond newline secrets (.str p.email) p.password = secrets)) ∨
    ((∀ m ∈ p.norm, m.Writable ∧ m.Plain) ∧ (p.HasAccount → AccountPlain beyond secrets p))

/-! ## The credentials -/

theorem text?_of_optionalKey {key : String} {line : PyStr} (made : optionalKey tomlQuote key v = some line)
    (encodable : line.Encodable) : ∃ o, optionalText? v = some o := by
  rw [optionalKey] at made
  rw [optionalText?]
  split_ifs at made ⊢
  · obtain ⟨quoted, is, rfl⟩ := Option.map_eq_some_iff.mp made
    rw [PyStr.encodable_append, PyStr.encodable_append] at encodable
    obtain ⟨text, has⟩ := text?_of_tomlQuote is encodable.1.2
    exact ⟨some text, by rw [has, Option.map_some]⟩
  · exact ⟨none, rfl⟩

def accountGiven (email password : List Char) (webUsername webPassword : Option (List Char)) : Given
  | .email => some email
  | .password => some password
  | .webUsername => webUsername
  | .webPassword => webPassword

/-- Credentials that are written have texts. -/
theorem text_of_saveSecrets (saved : saveSecrets beyond newline secrets email password = some bytes) :
    ∃ existing g, loadExisting beyond secrets = some existing ∧ AccountText existing email password g := by
  simp only [saveSecrets, Option.bind_eq_bind, Option.bind_eq_some_iff] at saved
  obtain ⟨existing, loaded, username, hasUsername, webPassword, hasWebPassword, e, quotedEmail, w, quotedPassword,
    usernameLine, madeUsername, webPasswordLine, madeWebPassword, written⟩ := saved
  obtain ⟨whole, chars, _⟩ := Option.map_eq_some_iff.mp written
  have encodable := PyStr.encodable_iff.mpr ⟨whole, chars⟩
  simp only [PyStr.encodable_append] at encodable
  obtain ⟨⟨⟨⟨_, ⟨_, emailText⟩, _⟩, ⟨_, passwordText⟩, _⟩, usernameText⟩, webPasswordText⟩ := encodable
  obtain ⟨emailText, isEmail⟩ := text?_of_tomlQuote quotedEmail emailText
  obtain ⟨passwordText, isPassword⟩ := text?_of_tomlQuote quotedPassword passwordText
  obtain ⟨usernameText, isUsername⟩ := text?_of_optionalKey madeUsername usernameText
  obtain ⟨webPasswordText, isWebPassword⟩ := text?_of_optionalKey madeWebPassword webPasswordText
  exact ⟨existing, accountGiven emailText passwordText usernameText webPasswordText, loaded, ⟨emailText, isEmail, rfl⟩, ⟨passwordText, isPassword, rfl⟩,
    ⟨username, hasUsername, isUsername⟩, webPassword, hasWebPassword, isWebPassword⟩

/-- A DEL makes the file unreadable. -/
theorem loadExisting_of_dirty {key : Key} {text : List Char} (given : g key = some text) (dirty : ¬ Clean text) :
    loadExisting beyond (some (storeFile newline secretsHeader escapeChar g)) = none := by
  let lines := secretsHeader.map String.toList ++ storeLines escapeChar g
  have plain : ∀ line ∈ lines, Toml.statement (α := PyValue) line ≠ .other := by
    refine List.forall_mem_append.mpr ⟨fun line inside => ?_, fun line inside => ?_⟩
    · rw [(secretsHeader_comments line inside).1]
      exact nofun
    · obtain ⟨other, _, inside⟩ := List.mem_flatMap.mp inside
      cases has : g other with
      | none =>
        rw [has] at inside
        cases inside
      | some found =>
        rw [has] at inside
        rw [List.mem_singleton.mp inside]
        exact statement_ne_other other.isLabel found
  have inside : key.label.toList ++ Toml.quote escapeChar text ∈ lines := by
    refine List.mem_append_right _ (List.mem_flatMap.mpr ⟨key, by cases key <;> decide, ?_⟩)
    rw [given]
    exact List.mem_singleton_self _
  obtain ⟨before, later, split⟩ := List.append_of_mem inside
  rw [loadExisting, tomlLoad, load_storeFile secretsHeader_comments fun _ _ _ c _ => oneLine_escapeChar c,
    show secretsHeader.map String.toList ++ storeLines escapeChar g = _ from split, List.append_assoc, List.cons_append,
    Toml.readLines_malformed (fun line mem => plain line (split ▸ List.mem_append_left _ mem))
      (statement_of_not_clean key.isLabel dirty)]
  rfl

theorem plain_ofChars (text : List Char) : PlainString (.str (PyStr.ofChars text)) ↔ Clean text := by
  rw [PlainString, Clean, PyStr.ofChars, List.mem_map]
  simp

theorem optionalText?_eq_some_iff {o : Option (List Char)} :
    optionalText? v = some o ↔ (v.truthy = true ∧ ∃ text, v.text? = some text ∧ o = some text) ∨
      (v.truthy = false ∧ o = none) := by
  rw [optionalText?]
  split_ifs with truthy
  · simp [truthy, eq_comm]
  · simp [truthy, eq_comm]

theorem textual_iff : (v.truthy = true → Textual v) ↔ ∃ o, optionalText? v = some o := by
  rw [optionalText?]
  split_ifs with truthy
  · simp [truthy, Textual]
  · simp [truthy]

/-- The credentials can be written if what the quoter sees of them are texts. -/
theorem saveSecrets_iff (beyond : TomlRest) (newline : PyText.Newline) (secrets : File) (p : Prepared) :
    (∃ bytes, saveSecrets beyond newline secrets (.str p.email) p.password = some bytes) ↔
      AccountWritable beyond secrets p := by
  constructor
  · rintro ⟨bytes, saved⟩
    obtain ⟨existing, g, loaded, ⟨e, isEmail, _⟩, ⟨w, isPassword, _⟩, ⟨username, hasUsername, isUsername⟩,
      webPassword, hasWebPassword, isWebPassword⟩ := text_of_saveSecrets saved
    refine ⟨existing, loaded, ⟨e, isEmail⟩, ⟨w, isPassword⟩, ?_⟩
    simp only [KeptLogin, List.forall_mem_cons]
    exact ⟨⟨username, hasUsername, textual_iff.mpr ⟨_, isUsername⟩⟩,
      ⟨webPassword, hasWebPassword, textual_iff.mpr ⟨_, isWebPassword⟩⟩, (by simp)⟩
  · rintro ⟨existing, loaded, ⟨e, isEmail⟩, ⟨w, isPassword⟩, kept⟩
    obtain ⟨username, hasUsername, usernameText⟩ := kept _ List.mem_cons_self
    obtain ⟨webPassword, hasWebPassword, webPasswordText⟩ := kept _ (List.mem_cons_of_mem _ List.mem_cons_self)
    obtain ⟨u, isUsername⟩ := textual_iff.mp usernameText
    obtain ⟨x, isWebPassword⟩ := textual_iff.mp webPasswordText
    have text : AccountText existing (.str p.email) p.password (accountGiven e w u x) :=
      ⟨⟨e, isEmail, rfl⟩, ⟨w, isPassword, rfl⟩, ⟨username, hasUsername, isUsername⟩,
        webPassword, hasWebPassword, isWebPassword⟩
    exact ⟨_, saveSecrets_of_text loaded text⟩

/-- The file has the credentials. -/
def HasAccountStored (beyond : TomlRest) (secrets : File) (p : Prepared) : Prop :=
  ∃ data, loadExisting beyond secrets = some data ∧
    data.get? "email" = some (.str p.email) ∧ data.get? "password" = some p.password

theorem get?_storeItems (g : Given) (key : Key) :
    (PyValue.dict (storeItems g)).get? key.name = some (valueOf (g key)) := by
  rw [PyValue.get?, PyValue.getD?, lookup_storeItems]

/-- What was written is stored if its texts are plain. -/
theorem stored_iff (newline : PyText.Newline) (loaded : loadExisting beyond secrets = some existing)
    (text : AccountText existing (.str p.email) p.password g) :
    HasAccountStored beyond (some (storeFile newline secretsHeader escapeChar g)) p ↔
      AccountPlain beyond secrets p := by
  obtain ⟨⟨e, isEmail, hasEmail⟩, ⟨w, isPassword, hasPassword⟩, ⟨username, hasUsername, isUsername⟩,
    webPassword, hasWebPassword, isWebPassword⟩ := text
  rw [PyValue.text?_str, PyStr.chars?_eq_some_iff] at isEmail
  constructor
  · rintro ⟨data, stored, _, samePassword⟩
    have clean : ∀ key, ∀ text ∈ g key, Clean text := by
      intro key text given
      by_contra dirty
      rw [loadExisting_of_dirty given dirty] at stored
      cases stored
    rw [loadExisting_store secretsHeader_comments fun key text given => quotes_persist (clean key text given),
      Option.some.injEq] at stored
    subst stored
    have password := get?_storeItems g .password
    simp only [Key.name] at password
    rw [samePassword, Option.some.injEq, hasPassword, valueOf] at password
    refine ⟨?_, ?_, fun existing' loaded' => ?_⟩
    · rw [isEmail, plain_ofChars]
      exact clean .email e hasEmail
    · rw [password, plain_ofChars]
      exact clean .password w hasPassword
    · cases loaded.symm.trans loaded'
      simp only [KeptLogin, List.forall_mem_cons]
      refine ⟨⟨username, hasUsername, fun truthy text is => ?_⟩,
        ⟨webPassword, hasWebPassword, fun truthy text is => ?_⟩, (by simp)⟩
      · rw [optionalText?, if_pos truthy, is, Option.map_some, Option.some.injEq] at isUsername
        exact clean .webUsername text isUsername.symm
      · rw [optionalText?, if_pos truthy, is, Option.map_some, Option.some.injEq] at isWebPassword
        exact clean .webPassword text isWebPassword.symm
  · rintro ⟨plainEmail, plainPassword, kept⟩
    have keptText := kept existing loaded
    obtain ⟨u, hasU, cleanU⟩ := keptText "web_username" List.mem_cons_self
    obtain ⟨x, hasX, cleanX⟩ := keptText "web_password" (List.mem_cons_of_mem _ List.mem_cons_self)
    cases hasUsername.symm.trans hasU
    cases hasWebPassword.symm.trans hasX
    obtain ⟨password, is⟩ : ∃ password, p.password = .str password := by
      cases same : p.password with
      | str password => exact ⟨password, rfl⟩
      | _ =>
        rw [same] at plainPassword
        cases plainPassword
    rw [is, PyValue.text?_str, PyStr.chars?_eq_some_iff] at isPassword
    rw [isEmail, plain_ofChars] at plainEmail
    rw [is, isPassword, plain_ofChars] at plainPassword
    have clean : ∀ key, ∀ text ∈ g key, Clean text := by
      rintro (_ | _ | _ | _) text given
      · cases hasEmail.symm.trans given
        exact plainEmail
      · cases hasPassword.symm.trans given
        exact plainPassword
      · rcases optionalText?_eq_some_iff.mp isUsername with ⟨truthy, found, is, same⟩ | ⟨_, same⟩
        · cases same.symm.trans given
          exact cleanU truthy _ is
        · cases same.symm.trans given
      · rcases optionalText?_eq_some_iff.mp isWebPassword with ⟨truthy, found, is, same⟩ | ⟨_, same⟩
        · cases same.symm.trans given
          exact cleanX truthy _ is
        · cases same.symm.trans given
    refine ⟨_, loadExisting_store secretsHeader_comments fun key text given => quotes_persist (clean key text given),
      ?_, ?_⟩
    · rw [isEmail]
      exact (get?_storeItems g .email).trans (by rw [hasEmail, valueOf])
    · rw [is, isPassword]
      exact (get?_storeItems g .password).trans (by rw [hasPassword, valueOf])

/-! ## The roster -/

/-- A row as the handler normalises it. -/
structure Row.Normal (m : Row) : Prop where
  name : ∃ s, m.name = .str s
  nickname : m.nickname = .none ∨ m.nickname.truthy = true ∧ ∃ s, m.nickname = .str s
  hc33Host : ∃ s, m.hc33Host = .str s
  iotId : m.iotId = .none ∨ m.iotId.truthy = true

theorem or_none_cases (v : PyValue) : v.or .none = .none ∨ (v.or .none).truthy = true ∧ v.or .none = v := by
  rw [PyValue.or]
  split_ifs with truthy
  · exact .inr ⟨truthy, rfl⟩
  · exact .inl rfl

theorem bind_eq_ok {α β : Type} {x : Except SaveError α} {f : α → Except SaveError β} {y : β} :
    (x >>= f) = .ok y ↔ ∃ a, x = .ok a ∧ f a = .ok y := by
  cases x with
  | error e => exact iff_of_false nofun fun ⟨a, absurd, _⟩ => nomatch absurd
  | ok a => exact ⟨fun made => ⟨a, rfl, made⟩, by rintro ⟨_, ⟨⟩, made⟩; exact made⟩

theorem normaliseRow_normal (made : normaliseRow v = .ok m) : m.Normal := by
  simp only [normaliseRow, bind_eq_ok] at made
  obtain ⟨name, _, host, _, made⟩ := made
  split_ifs at made
  simp only [bind_eq_ok] at made
  obtain ⟨nickname, _, port, _, iotId, _, made⟩ := made
  cases made
  refine ⟨⟨name, rfl⟩, ?_, ⟨host, rfl⟩, (or_none_cases iotId).imp_right And.left⟩
  exact (or_none_cases (.str nickname)).imp_right (And.imp_right fun same => ⟨nickname, same⟩)

theorem mapM_normal {rows : List PyValue} (made : rows.mapM normaliseRow = .ok norm) : ∀ m ∈ norm, m.Normal := by
  induction rows generalizing norm with
  | nil =>
    cases made
    exact nofun
  | cons v rows ih =>
    simp only [List.mapM_cons, bind_eq_ok] at made
    obtain ⟨m, first, more, rest, made⟩ := made
    cases made
    exact List.forall_mem_cons.mpr ⟨normaliseRow_normal first, ih rest⟩

theorem prepare_normal (prepared : prepare site payload = .ok p) : ∀ m ∈ p.norm, m.Normal := by
  simp only [prepare, normalise, bind_eq_ok] at prepared
  obtain ⟨norm, ⟨mowers, _, rows, _, norm', made, accepted⟩, account, _, prepared⟩ := prepared
  cases prepared
  split_ifs at accepted
  cases accepted
  exact mapM_normal made

/-- A row can be written if its fields are texts. -/
theorem writable_iff (m : Row) : (∃ t, m.HasText t) ↔ m.Writable := by
  constructor
  · rintro ⟨t, text⟩
    exact ⟨⟨_, text.name⟩, textual_iff.mpr ⟨_, text.nickname⟩, ⟨_, text.hc33Host⟩,
      str?_eq_some_iff.mp ⟨t.digits, text.port ▸ text.digits⟩, textual_iff.mpr ⟨_, text.iotId⟩⟩
  · rintro ⟨⟨name, isName⟩, nickname, ⟨host, isHost⟩, port, iotId⟩
    obtain ⟨nickname, isNickname⟩ := textual_iff.mp nickname
    obtain ⟨iotId, isIotId⟩ := textual_iff.mp iotId
    obtain ⟨digits, isDigits⟩ := str?_eq_some_iff.mpr port
    exact ⟨⟨name, nickname, host, m.hc33Port, digits, iotId⟩, isName, isNickname, isHost, rfl, isDigits, isIotId⟩

theorem texts_iff (rows : List Row) : (∃ texts, List.Forall₂ Row.HasText rows texts) ↔ ∀ m ∈ rows, m.Writable := by
  constructor
  · rintro ⟨texts, all⟩ m mem
    obtain ⟨t, _, text⟩ := exists_of_forall₂_left all mem
    exact (writable_iff m).mp ⟨t, text⟩
  · intro writable
    induction rows with
    | nil => exact ⟨[], .nil⟩
    | cons m rows ih =>
      obtain ⟨t, text⟩ := (writable_iff m).mpr (writable m List.mem_cons_self)
      obtain ⟨texts, all⟩ := ih fun m mem => writable m (List.mem_cons_of_mem _ mem)
      exact ⟨t :: texts, .cons text all⟩

/-- A field that is written if it is true comes back if it is a plain string. -/
theorem optional_comes_back {o : Option (List Char)} (normal : v = .none ∨ v.truthy = true)
    (text : optionalText? v = some o) :
    (RowText.optionalValue o = v ∧ ∀ text ∈ o, Clean text) ↔ (v.truthy = true → PlainString v) := by
  rcases normal with rfl | truthy
  · cases text
    exact iff_of_true ⟨rfl, nofun⟩ nofun
  · rw [optionalText?, if_pos truthy] at text
    obtain ⟨chars, is, rfl⟩ := Option.map_eq_some_iff.mp text
    simp only [truthy, true_implies, Option.mem_some_iff, forall_eq']
    constructor
    · rintro ⟨same, clean⟩
      rw [RowText.optionalValue] at same
      rcases or_none_cases (.str (PyStr.ofChars chars)) with absent | ⟨_, present⟩
      · rw [← same, absent] at truthy
        cases truthy
      · rw [← same, present, plain_ofChars]
        exact clean
    · intro plain
      cases v with
      | str s =>
        rw [PyValue.text?_str, PyStr.chars?_eq_some_iff] at is
        subst is
        exact ⟨if_pos truthy, (plain_ofChars chars).mp plain⟩
      | _ => exact plain.elim

theorem string_comes_back {text : List Char} (normal : ∃ s, v = .str s) (is : v.text? = some text) :
    v = .str (PyStr.ofChars text) ∧ (Clean text ↔ PlainString v) := by
  obtain ⟨s, rfl⟩ := normal
  rw [PyValue.text?_str, PyStr.chars?_eq_some_iff] at is
  subst is
  exact ⟨rfl, (plain_ofChars text).symm⟩

theorem row_comes_back (normal : m.Normal) (text : m.HasText t) : (t.row = m ∧ t.Clean) ↔ m.Plain := by
  have name := string_comes_back normal.name text.name
  have host := string_comes_back normal.hc33Host text.hc33Host
  have nickname := optional_comes_back (normal.nickname.imp_right And.left) text.nickname
  have iotId := optional_comes_back normal.iotId text.iotId
  constructor
  · rintro ⟨same, clean⟩
    refine ⟨name.2.mp clean.name, nickname.mp ⟨congrArg Row.nickname same, clean.nickname⟩, host.2.mp clean.hc33Host,
      iotId.mp ⟨congrArg Row.iotId same, clean.iotId⟩⟩
  · intro plain
    obtain ⟨sameNickname, cleanNickname⟩ := nickname.mpr plain.nickname
    obtain ⟨sameIotId, cleanIotId⟩ := iotId.mpr plain.iotId
    refine ⟨?_, name.2.mpr plain.name, cleanNickname, host.2.mpr plain.hc33Host, cleanIotId⟩
    rw [RowText.row, ← name.1, ← host.1, sameNickname, sameIotId, ← text.port]

/-- The roster comes back if its rows are plain. -/
theorem roster_comes_back (normal : ∀ m ∈ norm, m.Normal) (all : List.Forall₂ Row.HasText norm texts) :
    loadMowers beyond (some (rosterFile newline texts)) = some norm ↔ ∀ m ∈ norm, m.Plain := by
  have digits := digits_of_forall₂ all
  have each : (texts.map RowText.row = norm ∧ ∀ t ∈ texts, t.Clean) ↔ ∀ m ∈ norm, m.Plain := by
    induction all with
    | nil => simp
    | cons text _ ih =>
      rw [List.forall_mem_cons] at normal digits
      rw [List.map_cons, List.cons.injEq, List.forall_mem_cons, List.forall_mem_cons,
        ← row_comes_back normal.1 text, ← ih normal.2 digits.2]
      tauto
  rw [← each]
  by_cases clean : ∀ t ∈ texts, t.Clean
  · rw [loadMowers_of_clean fun t mem => ⟨digits t mem, clean t mem⟩, Option.some.injEq]
    exact ⟨fun same => ⟨same, clean⟩, And.left⟩
  · have dirty := clean
    push Not at dirty
    rw [loadMowers_of_not_clean digits dirty]
    exact iff_of_false nofun fun both => clean both.2

/-! ## The request -/

theorem saveMowers_of_not_writable (unwritable : ¬ ∀ m ∈ norm, m.Writable) : saveMowers newline norm = none := by
  cases saved : saveMowers newline norm with
  | none => rfl
  | some bytes => exact absurd ((texts_iff norm).mp (texts_of_saveMowers saved)) unwritable

/-- What the handler does once it has prepared a save. -/
theorem onboardSave_of_prepared (prepared : prepare site payload = .ok p) :
    Atomic beyond newline swap site payload ↔
      match writeSecrets beyond newline site p with
      | none => True
      | some next =>
        match saveMowers newline p.norm with
        | none => Unchanged site next
        | some bytes => Stored beyond p (applyMowers swap { next with roster := some bytes } p.norm) := by
  rw [Atomic, onboardSave, prepared]
  dsimp only
  cases writeSecrets beyond newline site p with
  | none => exact iff_of_true ⟨rfl, rfl, rfl, rfl⟩ trivial
  | some next =>
    cases saveMowers newline p.norm with
    | none => rfl
    | some bytes => exact ⟨by rintro ⟨_, ⟨⟩, stored⟩; exact stored, fun stored => ⟨p, rfl, stored⟩⟩

/-- The roster is written, and stored if it comes back. -/
theorem stored_applyMowers_iff {next : Site Live} (normal : ∀ m ∈ p.norm, m.Normal)
    (all : List.Forall₂ Row.HasText p.norm texts) :
    Stored beyond p (applyMowers swap
        { next with roster := some (rosterFile newline texts) } p.norm) ↔
      (∀ m ∈ p.norm, m.Plain) ∧ (p.HasAccount → HasAccountStored beyond next.secrets p) := by
  constructor
  · rintro ⟨roster, _, account⟩
    exact ⟨(roster_comes_back normal all).mp roster, account⟩
  · rintro ⟨plain, account⟩
    exact ⟨(roster_comes_back normal all).mpr plain, rfl, account⟩

theorem safe_iff_of_writable (savable : p.HasAccount → AccountWritable beyond secrets p)
    (rows : ∀ m ∈ p.norm, m.Writable) :
    p.Safe beyond newline secrets ↔ (∀ m ∈ p.norm, m.Plain) ∧ (p.HasAccount → AccountPlain beyond secrets p) := by
  constructor
  · rintro (⟨account, unsavable⟩ | ⟨unwritable, _⟩ | ⟨both, plain⟩)
    · exact absurd (savable account) unsavable
    · exact absurd rows unwritable
    · exact ⟨fun m mem => (both m mem).2, plain⟩
  · rintro ⟨plain, account⟩
    exact .inr (.inr ⟨fun m mem => ⟨rows m mem, plain m mem⟩, account⟩)

theorem safe_iff_of_not_writable (savable : p.HasAccount → AccountWritable beyond secrets p)
    (rows : ¬ ∀ m ∈ p.norm, m.Writable) :
    p.Safe beyond newline secrets ↔
      (p.HasAccount → saveSecrets beyond newline secrets (.str p.email) p.password = secrets) := by
  constructor
  · rintro (⟨account, unsavable⟩ | ⟨_, same⟩ | ⟨both, _⟩)
    · exact absurd (savable account) unsavable
    · exact same
    · exact absurd (fun m mem => (both m mem).1) rows
  · exact fun same => .inr (.inl ⟨rows, same⟩)

theorem atomic_iff_of_prepared (prepared : prepare site payload = .ok p) :
    Atomic beyond newline swap site payload ↔ p.Safe beyond newline site.secrets := by
  have normal := prepare_normal prepared
  rw [onboardSave_of_prepared prepared, writeSecrets]
  by_cases account : p.HasAccount
  · rw [if_pos account]
    cases saved : saveSecrets beyond newline site.secrets (.str p.email) p.password with
    | none =>
      have unwritable : ¬ AccountWritable beyond site.secrets p := fun writable => by
        obtain ⟨bytes, some⟩ := (saveSecrets_iff beyond newline site.secrets p).mpr writable
        rw [saved] at some
        cases some
      exact iff_of_true trivial (.inl ⟨account, unwritable⟩)
    | some bytes =>
      have savable := (saveSecrets_iff beyond newline site.secrets p).mp ⟨bytes, saved⟩
      by_cases rows : ∀ m ∈ p.norm, m.Writable
      · obtain ⟨texts, all⟩ := (texts_iff p.norm).mpr rows
        obtain ⟨existing, g, loaded, text⟩ := text_of_saveSecrets saved
        have same : bytes = _ := Option.some.inj (saved.symm.trans (saveSecrets_of_text loaded text))
        rw [Option.map_some, saveMowers_of_texts all, safe_iff_of_writable (fun _ => savable) rows,
          ← stored_iff newline loaded text, ← same]
        exact stored_applyMowers_iff normal all
      · rw [Option.map_some, saveMowers_of_not_writable rows, safe_iff_of_not_writable (fun _ => savable) rows, saved]
        exact ⟨fun unchanged _ => unchanged.secrets, fun same => ⟨same account, rfl, rfl, rfl⟩⟩
  · have savable : p.HasAccount → AccountWritable beyond site.secrets p := fun has => absurd has account
    rw [if_neg account]
    by_cases rows : ∀ m ∈ p.norm, m.Writable
    · obtain ⟨texts, all⟩ := (texts_iff p.norm).mpr rows
      rw [saveMowers_of_texts all, safe_iff_of_writable savable rows]
      refine (stored_applyMowers_iff normal all).trans (and_congr_right fun _ => ?_)
      exact iff_of_true (fun has => absurd has account) fun has => absurd has account
    · rw [saveMowers_of_not_writable rows, safe_iff_of_not_writable savable rows]
      exact iff_of_true ⟨rfl, rfl, rfl, rfl⟩ fun has => absurd has account

/-- A save is all or nothing if what is prepared is safe, and only then. -/
theorem save_atomic_iff (beyond : TomlRest) (newline : PyText.Newline) (swap : List Row → Live → Live)
    (site : Site Live) (payload : PyValue) :
    Atomic beyond newline swap site payload ↔
      ∀ p, prepare site payload = .ok p → p.Safe beyond newline site.secrets := by
  cases prepared : prepare site payload with
  | error e =>
    rw [Atomic, onboardSave, prepared]
    exact iff_of_true ⟨rfl, rfl, rfl, rfl⟩ nofun
  | ok p =>
    rw [atomic_iff_of_prepared prepared]
    exact ⟨by rintro safe _ ⟨⟩; exact safe, fun safe => safe p rfl⟩

/-- A number for an `iot_id`, sent together with the account. -/
def numberIotId : PyValue :=
  .dict [(PyStr.lit "mowers", .list [.dict [(PyStr.lit "name", .str (PyStr.lit "Luba")),
      (PyStr.lit "hc33_host", .str (PyStr.lit "192.168.1.54")), (PyStr.lit "iot_id", .int 5)]]),
    (PyStr.lit "email", .str (PyStr.lit "a@b.c")), (PyStr.lit "password", .str (PyStr.lit "secret"))]

set_option maxRecDepth 4000 in
/-- The credentials are written, and then the roster cannot be. -/
theorem numberIotId_halfSaved :
    ¬ ∀ (site : Site Unit) (payload : PyValue), Atomic (fun _ _ => none) .lf (fun _ live => live) site payload := by
  intro all
  let site : Site Unit := ⟨none, none, [], (), .none, .none⟩
  let p : Prepared := ⟨[⟨.str (PyStr.lit "Luba"), .none, .str (PyStr.lit "192.168.1.54"), 9876, .int 5⟩],
    PyStr.lit "a@b.c", .str (PyStr.lit "secret")⟩
  have prepared : prepare site numberIotId = .ok p := rfl
  have savable : AccountWritable (fun _ _ => none) none p := by
    refine ⟨.dict [], rfl, ⟨"a@b.c".toList, rfl⟩, ⟨"secret".toList, rfl⟩, fun key _ => ⟨.none, rfl, nofun⟩⟩
  obtain ⟨bytes, saved⟩ := (saveSecrets_iff (fun _ _ => none) .lf none p).mpr savable
  have account : p.HasAccount := by decide
  rcases (atomic_iff_of_prepared prepared).mp (all site numberIotId) with ⟨_, unsavable⟩ | ⟨_, same⟩ | ⟨both, _⟩
  · exact unsavable savable
  · cases saved.symm.trans (same account)
  · obtain ⟨text, is⟩ := (both _ List.mem_cons_self).1.iotId rfl
    cases is

end MammotionRc.Server
