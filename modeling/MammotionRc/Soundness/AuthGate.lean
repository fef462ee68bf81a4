import MammotionRc.Server.Auth

/-! # The gate lets through whom it should

The gate compares strings that a client sent with a function that refuses all but ASCII, outside of the guard
for malformed headers. It is exact for a scope if it does not come to such a comparison, and the login form
signs in whoever has credentials of ASCII and a username that is not stripped.
-/

namespace MammotionRc.Server

open Machine

/-- Who may pass. -/
def Allowed (username password token : List Char) (scope : Scope) : Prop :=
  scope.type = .other ∨ (scope.type = .http ∧ scope.path = some "/login".toList) ∨
    basicCredentials scope.headers = some (username, password) ∨ firstAuthCookie scope.headers = some token

/-- A browser that would show a page. -/
def WantsPage (scope : Scope) : Prop :=
  scope.method = some "GET".toList ∧ Utf8.encode "text/html".toList <:+: header scope.headers "accept"

/-- The middleware calls the app for whoever may pass, and answers the others according to their scope. -/
def GateExact (hmac : List UInt8 → List UInt8 → List UInt8) (username password : List Char) (scope : Scope) : Prop :=
  ∃ outcome, (authMiddleware hmac username (some password)).call scope = some outcome ∧
    ((∃ cookie, outcome = .app cookie) ↔ Allowed username password (wsToken hmac password) scope) ∧
    (¬ Allowed username password (wsToken hmac password) scope →
      (scope.type = .websocket → outcome = .close 1008) ∧
      (scope.type = .http → WantsPage scope → outcome = .respond 303 (some "/login".toList)) ∧
      (scope.type = .http → ¬ WantsPage scope → outcome = .respond 401 none))

/-- A form with the credentials. -/
def loginForm (username password : List Char) : List UInt8 :=
  Utf8.encode (UrlEncoded.field "username".toList username ++ '&' :: UrlEncoded.field "password".toList password)

/-- The form is answered with a cookie that opens the gate. -/
def LoginAccepted (hmac : List UInt8 → List UInt8 → List UInt8) (username password : List Char) : Prop :=
  ∃ token, loginSubmit (authMiddleware hmac username (some password)) (loginForm username password) =
      some (.signedIn token) ∧
    ∀ scope : Scope, scope.type ≠ .other → header scope.headers "authorization" = [] →
      header scope.headers "cookie" = Utf8.encode (AUTH_COOKIE ++ '=' :: token) →
      ∃ cookie, (authMiddleware hmac username (some password)).call scope = some (.app cookie)

/-- The comparisons for these headers are of ASCII: those of the credentials, and that of the cookie if the
credentials are not the configured ones. -/
def ComparesAscii (username password : List Char) (headers : List (List UInt8 × List UInt8)) : Prop :=
  (∀ user pw, basicCredentials headers = some (user, pw) →
    PyText.isAscii user = true ∧ PyText.isAscii username = true ∧
      (user = username → PyText.isAscii pw = true ∧ PyText.isAscii password = true)) ∧
  (basicCredentials headers ≠ some (username, password) →
    ∀ v, firstAuthCookie headers = some v → PyText.isAscii v = true)

/-- Every comparison that the gate comes to is one of ASCII. -/
def Comparable (username password : List Char) (scope : Scope) : Prop :=
  scope.type ≠ .other → ¬ (scope.type = .http ∧ scope.path = some "/login".toList) →
    ComparesAscii username password scope.headers

/-- The form can be compared and is compared with what was typed. -/
def Typable (username password : List Char) : Prop :=
  PyText.isAscii username = true ∧ PyText.isAscii password = true ∧ PyText.strip username = username

variable {hmac : List UInt8 → List UInt8 → List UInt8} {username password token a b : List Char} {scope : Scope}
  {headers : List (List UInt8 × List UInt8)}

theorem compareDigest_of_isAscii (left : PyText.isAscii a = true) (right : PyText.isAscii b = true) :
    compareDigest a b = some (decide (a = b)) := by
  rw [compareDigest, left, right]
  rfl

theorem compareDigest_eq_some_iff {same : Bool} : compareDigest a b = some same ↔
    PyText.isAscii a = true ∧ PyText.isAscii b = true ∧ (same = true ↔ a = b) := by
  rw [compareDigest]
  split
  · next ascii =>
    obtain ⟨left, right⟩ := Bool.and_eq_true_iff.mp ascii
    simp only [left, right, Option.some.injEq, true_and]
    by_cases equal : a = b <;> simp [equal, eq_comm]
  · next raises =>
    refine iff_of_false (Option.some_ne_none _).symm fun both => raises ?_
    rw [both.1, both.2.1]
    rfl

/-- A digest in hexadecimal is ASCII without the characters that matter in a cookie. -/
theorem mem_wsToken {c : Char} (mem : c ∈ wsToken hmac password) : c ∈ "0123456789abcdef".toList := by
  obtain ⟨byte, _, mem⟩ := List.mem_flatMap.mp mem
  obtain ⟨d, digit, rfl⟩ := List.mem_map.mp mem
  have each : ∀ d ∈ "0123456789ABCDEF".toList, d.toLower ∈ "0123456789abcdef".toList :=
    PyText.forall_of_all (by decide)
  rcases List.mem_pair.mp digit with rfl | rfl <;> exact each _ (Hex.digit_mem _)

theorem isAscii_wsToken : PyText.isAscii (wsToken hmac password) = true := by
  have each : ∀ c ∈ "0123456789abcdef".toList, c.toNat < 0x80 := PyText.forall_of_all (by decide)
  exact PyText.isAscii_iff.mpr fun c mem => each c (mem_wsToken mem)

/-- The header part of `Comparable` that concerns the credentials. -/
theorem basicOk_eq_some_iff {m : BasicAuthMiddleware} {ok : Bool} :
    m.basicOk password headers = some ok ↔
      (∀ user pw, basicCredentials headers = some (user, pw) →
        PyText.isAscii user = true ∧ PyText.isAscii m.username = true ∧
          (user = m.username → PyText.isAscii pw = true ∧ PyText.isAscii password = true)) ∧
      (ok = true ↔ basicCredentials headers = some (m.username, password)) := by
  rw [BasicAuthMiddleware.basicOk]
  cases basicCredentials headers with
  | none => cases ok <;> simp
  | some pair =>
    obtain ⟨user, pw⟩ := pair
    simp only [Option.some.injEq, Prod.mk.injEq, Option.bind_eq_bind, Option.bind_eq_some_iff,
      compareDigest_eq_some_iff]
    constructor
    · rintro ⟨same, ⟨asciiUser, asciiUsername, same_iff⟩, rest⟩
      split_ifs at rest with equal
      · obtain ⟨asciiPw, asciiPassword, ok_iff⟩ := compareDigest_eq_some_iff.mp rest
        refine ⟨?_, ok_iff.trans ⟨fun pws => ⟨same_iff.mp equal, pws⟩, And.right⟩⟩
        rintro _ _ ⟨rfl, rfl⟩
        exact ⟨asciiUser, asciiUsername, fun _ => ⟨asciiPw, asciiPassword⟩⟩
      · cases rest
        have other : user ≠ m.username := fun users => equal (same_iff.mpr users)
        refine ⟨?_, iff_of_false Bool.false_ne_true fun both => other both.1⟩
        rintro _ _ ⟨rfl, rfl⟩
        exact ⟨asciiUser, asciiUsername, fun users => absurd users other⟩
    · rintro ⟨ascii, ok_iff⟩
      obtain ⟨asciiUser, asciiUsername, asciiPws⟩ := ascii user pw ⟨rfl, rfl⟩
      refine ⟨decide (user = m.username), ⟨asciiUser, asciiUsername, decide_eq_true_iff⟩, ?_⟩
      split_ifs with users
      · obtain ⟨asciiPw, asciiPassword⟩ := asciiPws (of_decide_eq_true users)
        refine compareDigest_eq_some_iff.mpr ⟨asciiPw, asciiPassword, ok_iff.trans ⟨And.right, fun pws => ?_⟩⟩
        exact ⟨of_decide_eq_true users, pws⟩
      · have no : ok ≠ true := fun yes => users (decide_eq_true (ok_iff.mp yes).1)
        rw [Bool.eq_false_iff.mpr no]

theorem cookieOk_eq_some_iff {m : BasicAuthMiddleware} {ok : Bool} (tokened : m.token = some token)
    (ascii : PyText.isAscii token = true) : m.cookieOk headers = some ok ↔
      (∀ v, firstAuthCookie headers = some v → PyText.isAscii v = true) ∧
      (ok = true ↔ firstAuthCookie headers = some token) := by
  rw [BasicAuthMiddleware.cookieOk, tokened]
  cases firstAuthCookie headers with
  | none => cases ok <;> simp
  | some v =>
    simp only [Option.getD_some, compareDigest_eq_some_iff, ascii, true_and, Option.some.injEq, forall_eq']

/-- Who a request is from, if that can be compared. -/
theorem authenticated_eq_some_iff {m : BasicAuthMiddleware} {ok : Bool} (tokened : m.token = some token)
    (ascii : PyText.isAscii token = true) : m.authenticated password headers = some ok ↔
      ComparesAscii m.username password headers ∧
      (ok = true ↔ basicCredentials headers = some (m.username, password) ∨ firstAuthCookie headers = some token) := by
  simp only [BasicAuthMiddleware.authenticated, Option.bind_eq_bind, Option.bind_eq_some_iff, basicOk_eq_some_iff]
  constructor
  · rintro ⟨basic, ⟨credentials, basic_iff⟩, checked⟩
    split_ifs at checked with is
    · cases checked
      have mine := basic_iff.mp is
      exact ⟨⟨credentials, fun other => absurd mine other⟩, iff_of_true rfl (.inl mine)⟩
    · obtain ⟨cookies, ok_iff⟩ := (cookieOk_eq_some_iff tokened ascii).mp checked
      have foreign := fun mine => is (basic_iff.mpr mine)
      exact ⟨⟨credentials, fun _ => cookies⟩, ok_iff.trans (or_iff_right foreign).symm⟩
  · rintro ⟨⟨credentials, cookies⟩, ok_iff⟩
    by_cases mine : basicCredentials headers = some (m.username, password)
    · refine ⟨true, ⟨credentials, iff_of_true rfl mine⟩, ?_⟩
      rw [if_pos rfl, ok_iff.mpr (.inl mine)]
    · refine ⟨false, ⟨credentials, iff_of_false Bool.false_ne_true mine⟩, ?_⟩
      rw [if_neg Bool.false_ne_true]
      exact (cookieOk_eq_some_iff tokened ascii).mpr ⟨cookies mine, ok_iff.trans (or_iff_right mine)⟩

/-- What the gate does for a scope that has to show who it is from. -/
theorem call_eq_some_iff {m : BasicAuthMiddleware} {outcome : AuthOutcome} (secured : m.password = some password)
    (nonempty : password ≠ []) (tokened : m.token = some token) (ascii : PyText.isAscii token = true)
    (gated : scope.type ≠ .other) (guarded : ¬ (scope.type = .http ∧ scope.path = some "/login".toList)) :
    m.call scope = some outcome ↔ ∃ ok : Bool, (ComparesAscii m.username password scope.headers ∧
      (ok = true ↔ basicCredentials scope.headers = some (m.username, password) ∨
        firstAuthCookie scope.headers = some token)) ∧
      (if !ok then BasicAuthMiddleware.refuse scope else .app (scope.type = .http)) = outcome := by
  have closed : ¬ (password = [] ∨ scope.type = .other) := not_or.mpr ⟨nonempty, gated⟩
  rw [BasicAuthMiddleware.call, secured]
  simp only [if_neg closed, if_neg guarded, Option.map_eq_some_iff, authenticated_eq_some_iff tokened ascii]

theorem refuse_websocket (websocket : scope.type = .websocket) : BasicAuthMiddleware.refuse scope = .close 1008 :=
  if_pos websocket

theorem refuse_page (http : scope.type = .http) (page : WantsPage scope) :
    BasicAuthMiddleware.refuse scope = .respond 303 (some "/login".toList) := by
  have other : scope.type ≠ .websocket := by simp [http]
  rw [BasicAuthMiddleware.refuse, if_neg other]
  exact if_pos page

theorem refuse_rest (http : scope.type = .http) (rest : ¬ WantsPage scope) :
    BasicAuthMiddleware.refuse scope = .respond 401 none := by
  have other : scope.type ≠ .websocket := by simp [http]
  rw [BasicAuthMiddleware.refuse, if_neg other]
  exact if_neg rest

theorem refuse_ne_app (scope : Scope) (cookie : Bool) : BasicAuthMiddleware.refuse scope ≠ .app cookie := by
  rw [BasicAuthMiddleware.refuse]
  split_ifs <;> exact AuthOutcome.noConfusion

/-- **The gate is exact** for a scope exactly if all that it compares for it is ASCII. -/
theorem gateExact_iff (nonempty : password ≠ []) :
    GateExact hmac username password scope ↔ Comparable username password scope := by
  have tokened : (authMiddleware hmac username (some password)).token = some (wsToken hmac password) := by
    simp [authMiddleware, nonempty]
  by_cases other : scope.type = .other
  · have passes : (authMiddleware hmac username (some password)).call scope = some (.app false) := if_pos (.inr other)
    refine iff_of_true ⟨_, passes, ?_⟩ fun gated => absurd other gated
    exact ⟨iff_of_true ⟨false, rfl⟩ (.inl other), fun refused => absurd (.inl other) refused⟩
  by_cases login : scope.type = .http ∧ scope.path = some "/login".toList
  · have passes : (authMiddleware hmac username (some password)).call scope = some (.app false) := by
      have closed : ¬ (password = [] ∨ scope.type = .other) := not_or.mpr ⟨nonempty, other⟩
      exact (if_neg closed).trans (if_pos login)
    refine iff_of_true ⟨_, passes, ?_⟩ fun _ guarded => absurd login guarded
    exact ⟨iff_of_true ⟨false, rfl⟩ (.inr (.inl login)), fun refused => absurd (.inr (.inl login)) refused⟩
  have allowed : Allowed username password (wsToken hmac password) scope ↔
      basicCredentials scope.headers = some (username, password) ∨
        firstAuthCookie scope.headers = some (wsToken hmac password) := by
    rw [Allowed, or_iff_right other, or_iff_right login]
  have called {outcome : AuthOutcome} :
      (authMiddleware hmac username (some password)).call scope = some outcome ↔ ∃ ok : Bool,
        (ComparesAscii username password scope.headers ∧
          (ok = true ↔ Allowed username password (wsToken hmac password) scope)) ∧
        (if !ok then BasicAuthMiddleware.refuse scope else .app (scope.type = .http)) = outcome := by
    rw [allowed]
    exact call_eq_some_iff rfl nonempty tokened isAscii_wsToken other login
  constructor
  · rintro ⟨outcome, ran, _⟩ _ _
    obtain ⟨_, ⟨compares, _⟩, _⟩ := called.mp ran
    exact compares
  · intro comparable
    by_cases may : Allowed username password (wsToken hmac password) scope
    · refine ⟨_, called.mpr ⟨true, ⟨comparable other login, iff_of_true rfl may⟩, rfl⟩, ?_⟩
      exact ⟨iff_of_true ⟨_, rfl⟩ may, fun refused => absurd may refused⟩
    · refine ⟨_, called.mpr ⟨false, ⟨comparable other login, iff_of_false Bool.false_ne_true may⟩, rfl⟩, ?_⟩
      refine ⟨iff_of_false (fun ⟨cookie, is⟩ => refuse_ne_app scope cookie is) may, fun _ => ?_⟩
      exact ⟨refuse_websocket, refuse_page, refuse_rest⟩

theorem formValue_username (username password : List Char) :
    formValue (UrlEncoded.parseQsl (Utf8.decodeReplace (loginForm username password))) "username" = username := by
  rw [loginForm, Utf8.decodeReplace_encode, UrlEncoded.parseQsl_fields, formValue]
  by_cases blank : username = []
  · subst blank
    split_ifs <;> rfl
  · rw [if_neg blank]
    rfl

theorem formValue_password (username : List Char) (nonempty : password ≠ []) :
    formValue (UrlEncoded.parseQsl (Utf8.decodeReplace (loginForm username password))) "password" = password := by
  rw [loginForm, Utf8.decodeReplace_encode, UrlEncoded.parseQsl_fields, formValue, if_neg nonempty]
  split_ifs <;> rfl

/-- Who is signed in by the form. -/
theorem loginSubmit_form (nonempty : password ≠ []) :
    loginSubmit (authMiddleware hmac username (some password)) (loginForm username password) = some (.signedIn token) ↔
      Typable username password ∧ wsToken hmac password = token := by
  have tokened : (authMiddleware hmac username (some password)).token = some (wsToken hmac password) := by
    simp [authMiddleware, nonempty]
  have secured : (authMiddleware hmac username (some password)).password = some password := rfl
  rw [loginSubmit, secured]
  simp only [if_neg nonempty, formValue_username, formValue_password username nonempty, Option.bind_eq_bind,
    Option.bind_eq_some_iff, compareDigest_eq_some_iff, tokened, Option.getD_some]
  constructor
  · rintro ⟨same, ⟨_, asciiUser, same_iff⟩, rest⟩
    split_ifs at rest with differ
    · cases rest
    obtain ⟨ok, compared, answer⟩ := Option.map_eq_some_iff.mp rest
    obtain ⟨asciiPassword, _, ok_iff⟩ := compareDigest_eq_some_iff.mp compared
    rw [if_pos (ok_iff.mpr rfl)] at answer
    cases answer
    exact ⟨⟨asciiUser, asciiPassword, same_iff.mp (by simpa using differ)⟩, rfl⟩
  · rintro ⟨⟨asciiUser, asciiPassword, unstripped⟩, rfl⟩
    rw [unstripped]
    refine ⟨true, ⟨asciiUser, asciiUser, iff_of_true rfl rfl⟩, ?_⟩
    rw [compareDigest_of_isAscii asciiPassword asciiPassword, decide_eq_true rfl]
    rfl

/-- Text of ASCII is the same in Latin-1 and in UTF-8. -/
theorem latin1_encode {text : List Char} (ascii : PyText.isAscii text = true) : latin1 (Utf8.encode text) = text := by
  rw [PyText.isAscii_iff] at ascii
  induction text with
  | nil => rfl
  | cons c text ih =>
    have first := ascii c List.mem_cons_self
    have same : Char.ofNat (UInt8.ofNat c.toNat).toNat = c := by
      rw [UInt8.toNat_ofNat_of_lt' (Nat.lt_trans first (by decide)), Char.ofNat_toNat]
    rw [Utf8.encode_cons, Utf8.encodeChar_of_ascii first, latin1, List.map_append, List.map_singleton, same, ← latin1,
      ih fun d mem => ascii d (List.mem_cons_of_mem _ mem)]
    rfl

/-- A cookie header that a browser sends after the login. -/
theorem firstAuthCookie_of_login
    (sent : header headers "cookie" = Utf8.encode (AUTH_COOKIE ++ '=' :: wsToken hmac password)) :
    firstAuthCookie headers = some (wsToken hmac password) := by
  have label : ∀ c ∈ AUTH_COOKIE ++ ['='], c.toNat < 0x80 ∧ c ≠ ';' ∧ PyText.isSpace c = false :=
    PyText.forall_of_all (by decide)
  have digits : ∀ c ∈ "0123456789abcdef".toList, c.toNat < 0x80 ∧ c ≠ ';' ∧ PyText.isSpace c = false :=
    PyText.forall_of_all (by decide)
  have plain : ∀ c ∈ AUTH_COOKIE ++ '=' :: wsToken hmac password,
      c.toNat < 0x80 ∧ c ≠ ';' ∧ PyText.isSpace c = false := by
    intro c mem
    rw [← List.singleton_append, ← List.append_assoc] at mem
    rcases List.mem_append.mp mem with mem | mem
    · exact label c mem
    · exact digits c (mem_wsToken mem)
  have single : ';' ∉ AUTH_COOKIE ++ '=' :: wsToken hmac password := fun mem => (plain _ mem).2.1 rfl
  rw [firstAuthCookie, sent, latin1_encode (PyText.isAscii_iff.mpr fun c mem => (plain c mem).1),
    List.splitOn_eq_singleton single, List.findSome?_singleton, authCookie?,
    PyText.strip_of_not_isSpace fun c mem => (plain c mem).2.2, PyText.splitOnce_append _ _ (by decide)]
  exact if_pos rfl

/-- **The login form** signs in, with a cookie that opens the gate, exactly for credentials that can be typed. -/
theorem loginAccepted_iff (nonempty : password ≠ []) :
    LoginAccepted hmac username password ↔ Typable username password := by
  have tokened : (authMiddleware hmac username (some password)).token = some (wsToken hmac password) := by
    simp [authMiddleware, nonempty]
  constructor
  · rintro ⟨token, signedIn, _⟩
    exact ((loginSubmit_form nonempty).mp signedIn).1
  · intro typable
    refine ⟨_, (loginSubmit_form nonempty).mpr ⟨typable, rfl⟩, fun scope gated absent sent => ?_⟩
    have cookie := firstAuthCookie_of_login sent
    have anonymous : basicCredentials scope.headers = none := by
      rw [basicCredentials, absent]
      rfl
    by_cases login : scope.type = .http ∧ scope.path = some "/login".toList
    · have closed : ¬ (password = [] ∨ scope.type = .other) := not_or.mpr ⟨nonempty, gated⟩
      exact ⟨false, (if_neg closed).trans (if_pos login)⟩
    · refine ⟨_, (call_eq_some_iff rfl nonempty tokened isAscii_wsToken gated login).mpr ⟨true, ⟨⟨?_, ?_⟩, ?_⟩, rfl⟩⟩
      · intro user pw credentials
        cases anonymous.symm.trans credentials
      · intro _ v at_
        cases cookie.symm.trans at_
        exact isAscii_wsToken
      · exact iff_of_true rfl (.inr cookie)

/-- **The gate is exact and the login form opens it** exactly for scopes whose comparisons are of ASCII and
credentials that can be typed. -/
theorem auth_exact_iff (hmac : List UInt8 → List UInt8 → List UInt8) (username password : List Char)
    (nonempty : password ≠ []) (scope : Scope) :
    GateExact hmac username password scope ∧ LoginAccepted hmac username password ↔
      Comparable username password scope ∧ Typable username password :=
  and_congr (gateExact_iff nonempty) (loginAccepted_iff nonempty)

/-- A digest for the runs below. -/
private def fixedDigest (_ _ : List UInt8) : List UInt8 := List.replicate 32 0x5A

/-- A page request whose cookie has a byte that is not ASCII. -/
def strangeCookie : Scope :=
  ⟨.http, some "/".toList, some "GET".toList, [(Utf8.encode "cookie".toList, Utf8.encode "luba_auth=".toList ++ [0xFF])]⟩

/-- The gate raises for it. -/
theorem strangeCookie_raises : ¬ (GateExact fixedDigest "luba".toList "secret".toList strangeCookie ∧
    LoginAccepted fixedDigest "luba".toList "secret".toList) := by
  rintro ⟨⟨outcome, ran, _⟩, _⟩
  have raises : (authMiddleware fixedDigest "luba".toList (some "secret".toList)).call strangeCookie = none := by decide
  cases raises.symm.trans ran

/-- A request of a script with the configured credentials. -/
def scriptedRequest : Scope :=
  ⟨.http, some "/api/mowers".toList, some "GET".toList,
    [(Utf8.encode "authorization".toList, Utf8.encode "Basic bHViYTpzZWNyZXQ=".toList)]⟩

theorem auth_exact_scriptedRequest : GateExact fixedDigest "luba".toList "secret".toList scriptedRequest ∧
    LoginAccepted fixedDigest "luba".toList "secret".toList := by
  have credentials : basicCredentials scriptedRequest.headers = some ("luba".toList, "secret".toList) := by decide
  refine (auth_exact_iff fixedDigest _ _ (by decide) scriptedRequest).mpr ⟨fun _ _ => ⟨?_, ?_⟩, by decide, by decide, by decide⟩
  · intro user pw at_
    cases credentials.symm.trans at_
    decide
  · exact fun other => absurd credentials other

end MammotionRc.Server
