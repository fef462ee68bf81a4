import Mathlib.Data.List.DropRight
import MammotionRc.Machine.Run
import MammotionRc.Server.CloudSession

/-! # The session follows the login

A login replaces the session, drops the gateway and keeps the credentials, in one turn. Tasks that got hold of the
session before write to the same variables later, so this is undone if such a task is under way. If none is, the
session, the gateway and the credentials in memory are those of the last login ever after, and the credentials are
in memory or in their file.
-/

namespace MammotionRc.Server

open Machine

theorem strip_strip (s : PyStr) : s.strip.strip = s.strip := by
  have front : (s.strip).dropWhile PyStr.isSpace = s.strip := by
    rw [PyStr.strip]
    rcases dropped : s.dropWhile PyStr.isSpace with _ | ⟨c, rest⟩
    · rfl
    · have solid : PyStr.isSpace c = false := by
        have := List.dropWhile_get_zero_not PyStr.isSpace s (by simp [dropped])
        simpa [dropped] using this
      obtain ⟨gone, split⟩ := List.rdropWhile_prefix PyStr.isSpace (l := c :: rest)
      rcases kept : (c :: rest).rdropWhile PyStr.isSpace with _ | ⟨d, more⟩
      · rfl
      · rw [kept, List.cons_append, List.cons.injEq] at split
        rw [List.dropWhile_cons_of_neg (by rw [split.1, solid]; exact Bool.false_ne_true)]
  calc
    s.strip.strip = (s.strip.dropWhile PyStr.isSpace).rdropWhile PyStr.isSpace := rfl
    _ = s.strip.rdropWhile PyStr.isSpace := by rw [front]
    _ = s.strip := List.rdropWhile_idempotent _ _

/-- The credentials are written as they are. -/
structure Account.Clean (a : Account) : Prop where
  stripped : a.email.strip = a.email
  email : a.email ≠ []
  password : a.password ≠ []

namespace CloudSession

variable {Table : Type} {s t : CloudSession Table} {i j : ℕ} {a : Account} {pc : CloudPc}
  {es : List (CloudEvent Table)} {e : CloudEvent Table}

/-- What a task has in hand agrees with what is shared. -/
def Fits (s : CloudSession Table) : CloudPc → Prop
  | .loggingIn a => a.Clean
  | .ensuring a _ => s.secrets = some a ∧ s.onboard = none ∧ ∀ h, s.http = some h → h = a
  | .confirming h | .handshaking h => s.http = some h
  | .listing h g => g = h
  | .applying => ∀ a, s.onboard = some a → s.secrets = some a
  | _ => True

/-- The session, the gateway and the credentials in memory are of one account. -/
structure Consistent (s : CloudSession Table) : Prop where
  gateway : ∀ g, s.cloudClient = some g → s.http = some g
  captured : ∀ a, s.onboard = some a → s.http = some a
  clean : ∀ a, s.onboard = some a → a.Clean
  fits : ∀ j, s.Fits (s.tasks j)

theorem consistent_init (secrets : Option Account) : Consistent (init secrets : CloudSession Table) :=
  ⟨nofun, nofun, nofun, fun _ => trivial⟩

/-- A turn of task `i` that changes what is shared. -/
theorem Consistent.change {s' : CloudSession Table} (same : s'.tasks = s.tasks)
    (gateway : ∀ g, s'.cloudClient = some g → s'.http = some g)
    (captured : ∀ a, s'.onboard = some a → s'.http = some a) (clean : ∀ a, s'.onboard = some a → a.Clean)
    (others : ∀ j, j ≠ i → s'.Fits (s.tasks j)) (fits : s'.Fits pc) : Consistent (s'.setTask i pc) := by
  refine ⟨gateway, captured, clean, fun j => ?_⟩
  rw [setTask_tasks, same]
  change s'.Fits _
  by_cases own : j = i
  · rw [own, Function.update_self]
    exact fits
  · rw [Function.update_of_ne own]
    exact others j own

/-- A turn of task `i` that changes nothing that is shared. -/
theorem Consistent.move (consistent : Consistent s) (fits : s.Fits pc) : Consistent (s.setTask i pc) :=
  .change rfl consistent.gateway consistent.captured consistent.clean (fun j _ => consistent.fits j) fits

/-- Without credentials in the body the ones in memory are written. -/
theorem savedAccount_eq (clean : ∀ a, s.onboard = some a → a.Clean) : s.savedAccount [] [] = s.onboard := by
  rcases captured : s.onboard with _ | a
  · simp [savedAccount, captured, orStr, PyStr.strip]
  · obtain ⟨stripped, email, password⟩ := clean a captured
    simp [savedAccount, captured, orStr, stripped, email, password]

/-- The task has a session or credentials in hand that it will write, or credentials to clear. -/
def Underway : CloudPc → Prop
  | .ensuring .. | .confirming _ | .handshaking _ | .applying => True
  | _ => False

/-- When a login succeeds no such task is under way, and saves come without credentials. -/
def Orderly (s : CloudSession Table) : CloudEvent Table → Prop
  | .loginAnswered _ _ ok => ok = true → ∀ j, ¬ Underway (s.tasks j)
  | .save _ email password _ => email = [] ∧ password = []
  | _ => True

theorem fits_of_not_underway {s' : CloudSession Table} (fits : s.Fits pc) (idle : ¬ Underway pc) : s'.Fits pc := by
  cases pc with
  | loggingIn | listing => exact fits
  | ensuring | confirming | handshaking | applying => exact absurd trivial idle
  | absent | fetchCreated | listingElsewhere | fetching | ended => trivial

theorem Consistent.withHttp {caller : EnsureCaller} (consistent : Consistent s) (current : s.http = some a) :
    Consistent (s.withHttp i caller a) := by
  cases caller with
  | camera => exact consistent.move trivial
  | scan => exact consistent.move current
  | errorTable => exact consistent.move trivial

theorem Consistent.tableDone {table : Table} (consistent : Consistent s) : Consistent (s.tableDone i table) :=
  .change rfl consistent.gateway consistent.captured consistent.clean (fun j _ => consistent.fits j) trivial

theorem Consistent.gatewayFailed {h : Account} (consistent : Consistent s) : Consistent (s.gatewayFailed i h) :=
  .change rfl nofun consistent.captured consistent.clean (fun j _ => consistent.fits j) trivial

variable [EmptyCollection Table]

theorem Consistent.ensureRaised {caller : EnsureCaller} {how : CloudEnd} (consistent : Consistent s) :
    Consistent (s.ensureRaised i caller how) := by
  cases caller with
  | errorTable => exact consistent.tableDone
  | camera | scan => exact consistent.move trivial

theorem Consistent.ensureHttp {caller : EnsureCaller} (consistent : Consistent s) :
    Consistent (s.ensureHttp i caller) := by
  rw [CloudSession.ensureHttp]
  rcases current : s.http with _ | h
  · rcases stored : s.secrets with _ | a
    · exact consistent.ensureRaised
    · refine consistent.move ⟨stored, ?_, fun h held => by rw [current] at held; cases held⟩
      rcases captured : s.onboard with _ | b
      · rfl
      · cases current.symm.trans (consistent.captured b captured)
  · exact consistent.withHttp current

theorem Consistent.step (consistent : Consistent s) (orderly : Orderly s e) (stepped : s.step e = some t) :
    Consistent t := by
  cases e with
  | login i email password =>
    obtain ⟨_, rfl⟩ := step_login.mp stepped
    rw [CloudSession.login]
    split_ifs with missing
    · exact consistent.move trivial
    · rw [not_or] at missing
      exact consistent.move ⟨strip_strip email, missing.1, missing.2⟩
  | loginAnswered i a ok =>
    obtain ⟨pc, rfl⟩ := step_loginAnswered.mp stepped
    have clean : a.Clean := by
      have fits := consistent.fits i
      rwa [pc] at fits
    rw [CloudSession.loginAnswered]
    split_ifs with answered
    · refine .change rfl nofun (fun b same => same) (fun b same => ?_) (fun j _ => ?_) trivial
      · cases same
        exact clean
      · exact fits_of_not_underway (consistent.fits j) (orderly answered j)
    · exact consistent.move trivial
  | scan i =>
    obtain ⟨_, rfl⟩ := step_scan.mp stepped
    exact consistent.ensureHttp
  | camera i =>
    obtain ⟨_, rfl⟩ := step_camera.mp stepped
    exact consistent.ensureHttp
  | ensured i ok =>
    obtain ⟨a, caller, pc, rfl⟩ := step_ensured.mp stepped
    have fits := consistent.fits i
    rw [pc] at fits
    obtain ⟨stored, captured, current⟩ := fits
    split_ifs
    · have now : Consistent { s with http := some a } := by
        refine ⟨fun g opened => ?_, fun b held => ?_, consistent.clean, fun j => ?_⟩
        · rw [← current g (consistent.gateway g opened)]
        · cases captured.symm.trans held
        · have fits := consistent.fits j
          cases pc' : s.tasks j with
          | ensuring b _ =>
            rw [pc'] at fits
            refine ⟨fits.1, fits.2.1, fun h held => ?_⟩
            cases held
            cases stored.symm.trans fits.1
            rfl
          | confirming h | handshaking h =>
            rw [pc'] at fits
            cases current h fits
            rfl
          | loggingIn | listing | applying =>
            rw [pc'] at fits
            exact fits
          | absent | fetchCreated | listingElsewhere | fetching | ended => trivial
      exact now.withHttp rfl
    · exact consistent.ensureRaised
  | confirmed i =>
    obtain ⟨h, pc, rfl⟩ := step_confirmed.mp stepped
    have current := consistent.fits i
    rw [pc] at current
    rw [CloudSession.openGateway]
    rcases opened : s.cloudClient with _ | g
    · exact consistent.move current
    · exact consistent.move (Option.some.inj ((consistent.gateway g opened).symm.trans current))
  | handshaken i ok =>
    obtain ⟨h, pc, rfl⟩ := step_handshaken.mp stepped
    have current := consistent.fits i
    rw [pc] at current
    rw [CloudSession.handshaken]
    split_ifs
    · refine .change rfl (fun g opened => ?_) consistent.captured consistent.clean (fun j _ => consistent.fits j) rfl
      cases opened
      exact current
    · exact consistent.gatewayFailed
  | gatewayListed i answer =>
    obtain ⟨h, g, pc, rfl⟩ := step_gatewayListed.mp stepped
    cases answer with
    | devices => exact consistent.move trivial
    | nothing => exact consistent.move trivial
    | raised => exact consistent.gatewayFailed
  | elsewhereListed i =>
    obtain ⟨h, pc, rfl⟩ := step_elsewhereListed.mp stepped
    exact consistent.move trivial
  | save i email password written =>
    obtain ⟨_, rfl⟩ := step_save.mp stepped
    obtain ⟨rfl, rfl⟩ := orderly
    rw [CloudSession.save, savedAccount_eq consistent.clean]
    refine .change rfl consistent.gateway consistent.captured consistent.clean (fun j _ => ?_) ?_
    · have fits := consistent.fits j
      cases pc : s.tasks j with
      | ensuring b _ =>
        rw [pc] at fits
        obtain ⟨stored, captured, current⟩ := fits
        exact ⟨by rw [captured]; exact stored, captured, current⟩
      | applying => exact fun a held => by rw [held]; rfl
      | confirming | handshaking | loggingIn | listing =>
        rw [pc] at fits
        exact fits
      | absent | fetchCreated | listingElsewhere | fetching | ended => trivial
    · split_ifs
      · exact fun a held => by rw [show s.onboard = some a from held]; rfl
      · trivial
  | applied i ok =>
    obtain ⟨pc, rfl⟩ := step_applied.mp stepped
    rw [CloudSession.applied]
    split_ifs
    · refine .change rfl consistent.gateway nofun nofun (fun j _ => ?_) trivial
      have fits := consistent.fits j
      cases pc' : s.tasks j with
      | ensuring b _ =>
        rw [pc'] at fits
        exact ⟨fits.1, rfl, fits.2.2⟩
      | applying => exact nofun
      | confirming | handshaking | loggingIn | listing =>
        rw [pc'] at fits
        exact fits
      | absent | fetchCreated | listingElsewhere | fetching | ended => trivial
    · exact consistent.move trivial
  | status i =>
    obtain ⟨_, rfl⟩ := step_status.mp stepped
    rw [CloudSession.status]
    split_ifs
    · exact consistent
    · exact .change rfl consistent.gateway consistent.captured consistent.clean (fun j _ => consistent.fits j) trivial
  | fetchStarted i =>
    obtain ⟨_, rfl⟩ := step_fetchStarted.mp stepped
    exact consistent.ensureHttp
  | fetched i answer =>
    obtain ⟨h, pc, rfl⟩ := step_fetched.mp stepped
    exact consistent.tableDone
  | cancelled i =>
    obtain ⟨_, rfl⟩ := step_cancelled.mp stepped
    exact consistent.move trivial

/-- The account of the last login that succeeded. -/
def lastLogin (es : List (CloudEvent Table)) : Option Account :=
  (es.filterMap fun
    | .loginAnswered _ account ok => if ok then some account else none
    | _ => none).getLast?

omit [EmptyCollection Table] in
theorem lastLogin_concat (es : List (CloudEvent Table)) (e : CloudEvent Table) :
    lastLogin (es ++ [e]) = (lastLogin [e]).or (lastLogin es) := by
  rw [lastLogin, List.filterMap_append, List.getLast?_append]
  rfl

/-- The last login is in force, and its credentials are not lost. -/
def Remembers (last : Option Account) (s : CloudSession Table) : Prop :=
  ∀ a, last = some a → s.http = some a ∧ (s.onboard = some a ∨ s.secrets = some a)

/-- The session and the credentials are the same. -/
structure Shares (s t : CloudSession Table) : Prop where
  http : t.http = s.http
  onboard : t.onboard = s.onboard
  secrets : t.secrets = s.secrets

omit [EmptyCollection Table] in
theorem Remembers.shared {last : Option Account} (remembers : Remembers last s) (shares : Shares s t) :
    Remembers last t := by
  rw [Remembers, shares.http, shares.onboard, shares.secrets]
  exact remembers

theorem ensureRaised_shares (s : CloudSession Table) (i : ℕ) (caller : EnsureCaller) (how : CloudEnd) :
    Shares s (s.ensureRaised i caller how) := by
  cases caller <;> exact ⟨rfl, rfl, rfl⟩

theorem ensureHttp_shares (s : CloudSession Table) (i : ℕ) (caller : EnsureCaller) :
    Shares s (s.ensureHttp i caller) := by
  rw [CloudSession.ensureHttp]
  split
  · exact ⟨rfl, rfl, rfl⟩
  · split
    · exact ensureRaised_shares s i caller .noCredentials
    · exact ⟨rfl, rfl, rfl⟩

theorem Remembers.step {last : Option Account} (remembers : Remembers last s) (consistent : Consistent s)
    (orderly : Orderly s e) (stepped : s.step e = some t) : Remembers ((lastLogin [e]).or last) t := by
  cases e with
  | login i email password =>
    obtain ⟨_, rfl⟩ := step_login.mp stepped
    refine remembers.shared ?_
    rw [CloudSession.login]
    split_ifs <;> exact ⟨rfl, rfl, rfl⟩
  | loginAnswered i a ok =>
    obtain ⟨_, rfl⟩ := step_loginAnswered.mp stepped
    cases ok with
    | true =>
      intro b last
      cases last
      exact ⟨rfl, .inl rfl⟩
    | false => exact remembers.shared ⟨rfl, rfl, rfl⟩
  | scan i =>
    obtain ⟨_, rfl⟩ := step_scan.mp stepped
    exact remembers.shared (ensureHttp_shares s i .scan)
  | camera i =>
    obtain ⟨_, rfl⟩ := step_camera.mp stepped
    exact remembers.shared (ensureHttp_shares s i .camera)
  | ensured i ok =>
    obtain ⟨a, caller, pc, rfl⟩ := step_ensured.mp stepped
    split_ifs
    · -- the stored credentials are those of the last login, as none are in memory
      have fits := consistent.fits i
      rw [pc] at fits
      obtain ⟨stored, captured, current⟩ := fits
      intro b last
      obtain ⟨held, kept⟩ := remembers b last
      cases current b held
      exact ⟨rfl, kept⟩
    · exact remembers.shared (ensureRaised_shares s i caller .ensureFailed)
  | confirmed i =>
    obtain ⟨h, _, rfl⟩ := step_confirmed.mp stepped
    refine remembers.shared ?_
    rw [CloudSession.openGateway]
    split <;> exact ⟨rfl, rfl, rfl⟩
  | handshaken i ok =>
    obtain ⟨h, _, rfl⟩ := step_handshaken.mp stepped
    refine remembers.shared ?_
    rw [CloudSession.handshaken]
    split_ifs <;> exact ⟨rfl, rfl, rfl⟩
  | gatewayListed i answer =>
    obtain ⟨h, g, _, rfl⟩ := step_gatewayListed.mp stepped
    refine remembers.shared ?_
    cases answer <;> exact ⟨rfl, rfl, rfl⟩
  | elsewhereListed i =>
    obtain ⟨h, _, rfl⟩ := step_elsewhereListed.mp stepped
    exact remembers.shared ⟨rfl, rfl, rfl⟩
  | save i email password written =>
    obtain ⟨_, rfl⟩ := step_save.mp stepped
    obtain ⟨rfl, rfl⟩ := orderly
    intro a last
    obtain ⟨held, kept⟩ := remembers a last
    refine ⟨held, kept.imp_right fun stored => ?_⟩
    change (s.savedAccount [] []).or s.secrets = some a
    rw [savedAccount_eq consistent.clean, stored]
    rcases captured : s.onboard with _ | b
    · rfl
    · exact (consistent.captured b captured).symm.trans held
  | applied i ok =>
    obtain ⟨pc, rfl⟩ := step_applied.mp stepped
    have fits := consistent.fits i
    rw [pc] at fits
    cases ok with
    | true =>
      intro a last
      obtain ⟨held, kept⟩ := remembers a last
      exact ⟨held, .inr (kept.elim (fits a) id)⟩
    | false => exact remembers.shared ⟨rfl, rfl, rfl⟩
  | status i =>
    obtain ⟨_, rfl⟩ := step_status.mp stepped
    refine remembers.shared ?_
    rw [CloudSession.status]
    split_ifs <;> exact ⟨rfl, rfl, rfl⟩
  | fetchStarted i =>
    obtain ⟨_, rfl⟩ := step_fetchStarted.mp stepped
    exact remembers.shared (ensureHttp_shares s i .errorTable)
  | fetched i answer =>
    obtain ⟨h, _, rfl⟩ := step_fetched.mp stepped
    exact remembers.shared ⟨rfl, rfl, rfl⟩
  | cancelled i =>
    obtain ⟨_, rfl⟩ := step_cancelled.mp stepped
    exact remembers.shared ⟨rfl, rfl, rfl⟩

/-- **The session follows the login.** In a run in which a login only succeeds while no task with an older session
is under way, and saves bring no credentials of their own: the session is that of the last login, so is a gateway,
so are the credentials in memory; the credentials are in memory or in their file; and what a scan lists is of the
account that it began with. -/
theorem session_follows_login {secrets : Option Account} (orderly : Meets step (fun _ => Orderly) (init secrets) es)
    (ran : run step (init secrets) es = some s) :
    (∀ a, lastLogin es = some a → s.http = some a ∧ (s.onboard = some a ∨ s.secrets = some a)) ∧
      (∀ g, s.cloudClient = some g → s.http = some g) ∧ (∀ a, s.onboard = some a → s.http = some a) ∧
      ∀ i h g, s.tasks i = .listing h g → g = h := by
  have both : Consistent s ∧ Remembers (lastLogin es) s := by
    refine run_invariant_of_meets (I := fun es s => Consistent s ∧ Remembers (lastLogin es) s)
      ⟨consistent_init secrets, nofun⟩ ?_ orderly ran
    intro es t e u held meets stepped
    refine ⟨held.1.step meets stepped, ?_⟩
    rw [lastLogin_concat]
    exact held.2.step held.1 meets stepped
  obtain ⟨consistent, remembers⟩ := both
  refine ⟨remembers, consistent.gateway, consistent.captured, fun i h g pc => ?_⟩
  have fits := consistent.fits i
  rwa [pc] at fits

private def owner : Account := ⟨PyStr.lit "owner@example.com", PyStr.lit "secret"⟩
private def guest : Account := ⟨PyStr.lit "guest@example.com", PyStr.lit "secret"⟩

/-- A login, a scan and a save. -/
def firstSetup : List (CloudEvent (List ℕ)) :=
  [.login 0 (PyStr.lit " owner@example.com") (PyStr.lit "secret"), .loginAnswered 0 owner true, .scan 1, .confirmed 1,
    .handshaken 1 true, .gatewayListed 1 .devices, .save 2 [] [] true, .applied 2 true]

theorem session_follows_login_firstSetup :
    ∃ s, run step (init none) firstSetup = some s ∧ (s.onboard = some owner ∨ s.secrets = some owner) := by
  have orderly : Meets step (fun _ => Orderly) (init none) firstSetup := by
    refine .of_getElem fun n e at_ s reached => ?_
    rcases n with _ | _ | _ | _ | _ | _ | _ | _ | n <;> cases at_
    case succ.zero =>
      cases reached
      intro _ j
      by_cases own : j = 0
      · rw [own]
        exact id
      · have idle : Function.update (fun _ => CloudPc.absent) 0 (CloudPc.loggingIn owner) j = .absent :=
          Function.update_of_ne own ..
        change ¬ Underway (Function.update (fun _ => CloudPc.absent) 0 (CloudPc.loggingIn owner) j)
        rw [idle]
        exact id
    all_goals trivial
  exact ⟨_, rfl, ((session_follows_login orderly rfl).1 owner rfl).2⟩

/-- A scan that logs in from the file while somebody logs in to another account leaves the session of the one beside
the credentials of the other. -/
example : (run step (init (some owner) : CloudSession (List ℕ))
      [.scan 0, .login 1 guest.email guest.password, .loginAnswered 1 guest true, .ensured 0 true,
        .confirmed 0]).map (fun s => (s.http, s.onboard)) =
    some (some owner, some guest) := rfl

end CloudSession

end MammotionRc.Server
