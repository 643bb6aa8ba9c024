import RecordStore.Proofs.Config.Variables
import RecordStore.Proofs.Reading.Name
import RecordStore.Text.Split

/-!
# Composed addresses

An address that is put together from its parts has the user, a colon and the password in front of
an `@` and of the host, all of them as they stand. The signs between the parts may stand in the
parts too. So two logins can make up one address, when the user of one runs on into the password of
the other, and the host is read where it stands only if the login has no `@`, or holds the host
itself behind the first one.
-/

namespace RecordStore

/-- Where a database is. -/
structure Server where
  host : String
  port : String
  name : String

/-- Who connects to a database. -/
structure Login where
  user : String
  password : Option String
deriving DecidableEq

namespace Login

/-- A password behind its colon; nothing without a password. -/
def passwordText (login : Login) : String :=
  match login.password with
  | some password => ":" ++ password
  | none => ""

/-- What an address has in front of its `@`. -/
def text (login : Login) : String := login.user ++ login.passwordText

/-- The user of a login runs on, behind a colon, into the password of another: the one user ends
where the colon stands, the other further on, and what is left of the password is the same. -/
def RunsInto (login other : Login) : Prop :=
  ∃ between, other.user = login.user ++ ":" ++ between ∧
    login.password = some (between ++ other.passwordText)

/-- A login whose first `@` has a host and a colon behind it. -/
def HoldsHost (login : Login) (host : String) : Prop :=
  ∃ before after, login.text = before ++ "@" ++ host ++ ":" ++ after ∧ '@' ∉ before.toList

end Login

namespace Server

/-- What an address has behind its `@`. -/
def text (server : Server) : String := server.host ++ ":" ++ server.port ++ "/" ++ server.name

/-- The address of a login at a server. -/
def url (server : Server) (login : Login) : String :=
  "postgres://" ++ login.text ++ "@" ++ server.text

end Server

/-- The host that is read from an address: what stands behind the first `@`, up to a colon. -/
def hostOfUrl? (url : String) : Option String := do
  let rest ← Reading.skip? "postgres://" url.toList
  let (_, behind) ← splitFirst '@' rest
  let (host, _) ← splitFirst ':' behind
  return .ofList host

/-- An environment without an address of its own whose parts are those of a server and of a login.
The port may be left out. -/
structure Environment.Composes (env : Environment) (server : Server) (login : Login) : Prop where
  address : env.present? "APP_DB_DSN" = none
  host : env.present? "APP_DB_HOST" = some server.host
  port : (env.present? "APP_DB_PORT").getD "5432" = server.port
  name : env.present? "APP_DB_NAME" = some server.name
  user : env.present? "APP_DB_USER" = some login.user
  password : env.present? "APP_DB_PASSWORD" = login.password

namespace Environment.Composes

variable {env : Environment} {server : Server} {login : Login}

/-- The address that the parts make up. -/
theorem databaseUrl_eq (h : env.Composes server login) :
    env.databaseUrl = .ok (server.url login) := by
  have hcredentials : env.credentials = login.text ++ "@" := by
    rw [credentials, h.user, h.password, Login.text, Login.passwordText]
    cases login.password <;> simp [String.append_assoc]
  rw [databaseUrl, h.address, composedUrl, h.host, h.name]
  simp only [h.port, hcredentials, Server.url, Server.text, String.append_assoc]

/-- A configuration has the address that the parts make up. -/
theorem databaseUrl_of_config (h : env.Composes server login) {config : StoreConfig}
    (hconfig : env.config = .ok config) : config.databaseUrl = server.url login := by
  obtain ⟨url, _, _, _, hurl, -, -, -, rfl⟩ := config_eq_ok_iff.1 hconfig
  exact Except.ok.inj (hurl.symm.trans h.databaseUrl_eq)

end Environment.Composes

/-! ### Logins with one text -/

namespace Login

variable {login other : Login}

private theorem passwordText_eq_iff :
    login.passwordText = other.passwordText ↔ login.password = other.password := by
  rw [passwordText, passwordText]
  cases login.password <;> cases other.password <;> simp [String.ext_iff]

private theorem password_of_passwordText {c : Char} {cs : List Char}
    (h : login.passwordText.toList = c :: cs) :
    c = ':' ∧ login.password = some (.ofList cs) := by
  rw [passwordText] at h
  cases hpassword : login.password with
  | none => simp [hpassword] at h
  | some password =>
    simp only [hpassword, String.toList_append] at h
    obtain ⟨rfl, rfl⟩ : ':' = c ∧ password.toList = cs := by simpa using h
    simp

/-- A login that runs into another has its text. -/
theorem RunsInto.text_eq (h : login.RunsInto other) : login.text = other.text := by
  obtain ⟨between, huser, hpassword⟩ := h
  rw [text, text, huser, passwordText, hpassword]
  simp only [String.append_assoc]

-- What the second user has more than the first stands at the front of the first password's text,
-- and so it starts with the colon.
private theorem eq_or_runsInto {more : List Char}
    (huser : other.user.toList = login.user.toList ++ more)
    (hpassword : login.passwordText.toList = more ++ other.passwordText.toList) :
    login = other ∨ login.RunsInto other := by
  cases more with
  | nil =>
    left
    have huser : other.user = login.user := String.toList_inj.1 (by simpa using huser)
    have hpassword : login.password = other.password :=
      passwordText_eq_iff.1 (String.toList_inj.1 (by simpa using hpassword))
    cases login
    cases other
    simp_all
  | cons c between =>
    right
    obtain ⟨rfl, hgiven⟩ := password_of_passwordText hpassword
    refine ⟨.ofList between, ?_, ?_⟩
    · rw [← String.toList_inj, huser]
      simp
    · simpa using hgiven

-- What stands behind the first `@` of a login tells whether it is a host with its colon.
private theorem holdsHost_iff {before more : List Char} {host : String}
    (h : login.text.toList = before ++ '@' :: more) (hbefore : '@' ∉ before) :
    login.HoldsHost host ↔ ∃ after, more = host.toList ++ ':' :: after := by
  constructor
  · rintro ⟨first, after, htext, hfirst⟩
    have hcs : before ++ '@' :: more =
        first.toList ++ '@' :: (host.toList ++ ':' :: after.toList) := by
      rw [← h, htext]
      simp
    exact ⟨after.toList, ((append_separator_inj hbefore hfirst).1 hcs).2⟩
  · rintro ⟨after, rfl⟩
    refine ⟨.ofList before, .ofList after, ?_, by simpa using hbefore⟩
    rw [← String.toList_inj, h]
    simp

/-- Two logins have one text exactly when they are the same or one runs into the other. -/
theorem text_eq_iff :
    login.text = other.text ↔ login = other ∨ login.RunsInto other ∨ other.RunsInto login := by
  constructor
  · intro h
    rw [← String.toList_inj, text, text, String.toList_append, String.toList_append,
      List.append_eq_append_iff] at h
    rcases h with ⟨more, huser, hpassword⟩ | ⟨more, huser, hpassword⟩
    · exact (eq_or_runsInto huser hpassword).imp_right .inl
    · exact (eq_or_runsInto huser hpassword).imp Eq.symm .inr
  · rintro (rfl | h | h)
    · rfl
    · exact h.text_eq
    · exact h.text_eq.symm

end Login

/-! ### Addresses at one server -/

namespace Server

variable {server : Server} {login other : Login}

/-- Addresses at one server are the same exactly when the texts of the logins are. -/
theorem url_eq_iff : server.url login = server.url other ↔ login.text = other.text := by
  simp only [url, String.append_assoc, ← String.toList_inj, String.toList_append,
    List.append_cancel_left_eq, List.append_cancel_right_eq]

private theorem toList_text (server : Server) :
    ∃ behind, server.text.toList = server.host.toList ++ ':' :: behind :=
  ⟨(server.port ++ "/" ++ server.name).toList, by simp [text]⟩

-- The host is read behind the first `@`, wherever that stands.
private theorem hostOfUrl?_url {before behind : List Char}
    (h : login.text.toList ++ '@' :: server.text.toList = before ++ '@' :: behind)
    (hbefore : '@' ∉ before) :
    hostOfUrl? (server.url login) = (splitFirst ':' behind).map fun parts ↦ .ofList parts.1 := by
  have hcs : (server.url login).toList = "postgres://".toList ++ (before ++ '@' :: behind) := by
    rw [← h]
    simp [url]
  rw [hostOfUrl?, hcs, Reading.skip?_append]
  simp only [Option.bind_eq_bind, Option.bind_some, splitFirst_append hbefore]
  cases splitFirst ':' behind <;> rfl

/-- Without an `@` in the login the host is read. -/
theorem hostOfUrl?_url_of_not_mem (hhost : ':' ∉ server.host.toList)
    (h : '@' ∉ login.text.toList) : hostOfUrl? (server.url login) = some server.host := by
  obtain ⟨behind, hbehind⟩ := server.toList_text
  rw [hostOfUrl?_url rfl h, hbehind, splitFirst_append hhost]
  simp

-- Behind an `@` of the login what is read ends at its next colon. Without one it goes on up to the
-- host and its colon, and is longer than the host.
private theorem hostOfUrl?_url_of_split {before more : List Char}
    (hhost : ':' ∉ server.host.toList) (h : login.text.toList = before ++ '@' :: more)
    (hbefore : '@' ∉ before) :
    hostOfUrl? (server.url login) = some server.host ↔
      ∃ after, more = server.host.toList ++ ':' :: after := by
  have hsplit : login.text.toList ++ '@' :: server.text.toList =
      before ++ '@' :: (more ++ '@' :: server.text.toList) := by
    simp [h]
  rw [hostOfUrl?_url hsplit hbefore]
  by_cases hmore : ':' ∈ more
  · obtain ⟨host, after, rfl, hcolon⟩ := List.eq_append_cons_of_mem hmore
    rw [List.append_assoc, List.cons_append, splitFirst_append hcolon]
    simp only [Option.map_some, Option.some.injEq, append_separator_inj hcolon hhost,
      exists_and_left, exists_eq', and_true]
    rw [← String.toList_inj, String.toList_ofList]
  · refine iff_of_false ?_ ?_
    · obtain ⟨behind, hbehind⟩ := server.toList_text
      have hcolon : ':' ∉ more ++ '@' :: server.host.toList := by simp [hmore, hhost]
      have hcs : more ++ '@' :: server.text.toList =
          (more ++ '@' :: server.host.toList) ++ ':' :: behind := by
        simp [hbehind]
      rw [hcs, splitFirst_append hcolon, Option.map_some, Option.some.injEq,
        ← String.toList_inj, String.toList_ofList]
      intro hread
      have hlength := congrArg List.length hread
      simp only [List.length_append, List.length_cons] at hlength
      omega
    · rintro ⟨after, rfl⟩
      simp at hmore

/-- The host is read from an address exactly when the login has no `@`, or the host stands behind
its first one. -/
theorem hostOfUrl?_url_eq_some_iff (hhost : ':' ∉ server.host.toList) :
    hostOfUrl? (server.url login) = some server.host ↔
      '@' ∉ login.text.toList ∨ login.HoldsHost server.host := by
  by_cases h : '@' ∈ login.text.toList
  · obtain ⟨before, more, htext, hbefore⟩ := List.eq_append_cons_of_mem h
    rw [hostOfUrl?_url_of_split hhost htext hbefore, Login.holdsHost_iff htext hbefore,
      or_iff_right (not_not_intro h)]
  · exact iff_of_true (hostOfUrl?_url_of_not_mem hhost h) (.inl h)

end Server

namespace Environment

/-- Two configurations composed for one server have the same address exactly when their logins are
the same or one runs into the other, and the host is read from an address exactly when its login has
no `@`, or holds the host behind its first one. -/
theorem composed_url_eq_iff {first second : Environment} {server : Server} {login other : Login}
    (hfirst : first.Composes server login) (hsecond : second.Composes server other)
    (hhost : ':' ∉ server.host.toList) {config otherConfig : StoreConfig}
    (hconfig : first.config = .ok config) (hotherConfig : second.config = .ok otherConfig) :
    (config.databaseUrl = otherConfig.databaseUrl ↔
      login = other ∨ login.RunsInto other ∨ other.RunsInto login) ∧
    (hostOfUrl? config.databaseUrl = some server.host ↔
      '@' ∉ login.text.toList ∨ login.HoldsHost server.host) := by
  rw [hfirst.databaseUrl_of_config hconfig, hsecond.databaseUrl_of_config hotherConfig]
  constructor
  · rw [Server.url_eq_iff, Login.text_eq_iff]
  · exact Server.hostOfUrl?_url_eq_some_iff hhost

/-- A user with a colon and the one up to that colon make up one address, and an `@` in the password
hides the host. -/
theorem composed_url_eq_iff_colon :
    let server : Server := ⟨"db", "5432", "app"⟩
    let login : Login := ⟨"a:b", some "p@ss"⟩
    let other : Login := ⟨"a", some "b:p@ss"⟩
    let env (user password : String) : Environment := fun key ↦ List.lookup key
      [("APP_DB_HOST", "db"), ("APP_DB_NAME", "app"), ("APP_DB_USER", user),
        ("APP_DB_PASSWORD", password)]
    let config : StoreConfig := ⟨"postgres://a:b:p@ss@db:5432/app", 10, 30, 100⟩
    (env "a:b" "p@ss").Composes server login ∧ (env "a" "b:p@ss").Composes server other ∧
      ':' ∉ server.host.toList ∧ (env "a:b" "p@ss").config = .ok config ∧
      (env "a" "b:p@ss").config = .ok config ∧ login ≠ other ∧
      (login.RunsInto other ∨ other.RunsInto login) ∧ hostOfUrl? config.databaseUrl = some "ss@db" ∧
      ¬login.HoldsHost server.host := by
  intro server login other env config
  have hfirst : (env "a:b" "p@ss").Composes server login := by
    constructor <;> decide +kernel
  have hsecond : (env "a" "b:p@ss").Composes server other := by
    constructor <;> decide +kernel
  have hhost : ':' ∉ server.host.toList := by decide +kernel
  have hconfig : (env "a:b" "p@ss").config = .ok config := by decide +kernel
  have hotherConfig : (env "a" "b:p@ss").config = .ok config := by decide +kernel
  have hdistinct : login ≠ other := by decide +kernel
  have hread : hostOfUrl? config.databaseUrl = some "ss@db" := by decide +kernel
  obtain ⟨hsame, hhostRead⟩ := composed_url_eq_iff hfirst hsecond hhost hconfig hotherConfig
  refine ⟨hfirst, hsecond, hhost, hconfig, hotherConfig, hdistinct,
    (hsame.1 rfl).resolve_left hdistinct, hread, fun hholds ↦ ?_⟩
  have hplace := hhostRead.2 (.inr hholds)
  rw [hread] at hplace
  exact absurd hplace (by decide +kernel)

end Environment

end RecordStore
