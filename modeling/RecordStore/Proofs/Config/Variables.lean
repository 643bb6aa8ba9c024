import RecordStore.Config.Environment
import RecordStore.Error.Outcome
import RecordStore.Proofs.Page.Normalized

/-!
# The variables of a configuration

A configuration is made from nine variables, of which a blank one counts as absent. It needs an
address, which is a variable of its own or is put together from a host, a name and what else there
is, and each number that is given has to be one of its range. The checks are made in a fixed order
and the first that fails is reported. With an address of its own the parts of one are not looked at.
-/

namespace RecordStore

/-- A variable that holds a number. -/
inductive NumberKey where
  | maxConnections
  | pageLimitDefault
  | pageLimitMax

namespace NumberKey

/-- The name of the variable. -/
def name : NumberKey → String
  | .maxConnections => "APP_DB_MAX_CONNECTIONS"
  | .pageLimitDefault => "APP_PAGE_LIMIT_DEFAULT"
  | .pageLimitMax => "APP_PAGE_LIMIT_MAX"

/-- The number of a blank variable. -/
def whenBlank : NumberKey → Int
  | .maxConnections => 10
  | .pageLimitDefault => 30
  | .pageLimitMax => 100

/-- The smallest number of the range: connections are counted by an unsigned 32-bit number, rows by
a signed 64-bit one. -/
def least : NumberKey → Int
  | .maxConnections => 0
  | _ => int64Min

/-- The largest number of the range. -/
def most : NumberKey → Int
  | .maxConnections => 4294967295
  | _ => int64Max

/-- A value that holds a number of a variable, blanks around it ignored. A range without negative
numbers has no minus sign either. -/
structure Holds (key : NumberKey) (value : String) (z : Int) : Prop where
  numeral : IsNumeral (trim value).toList z
  least_le : key.least ≤ z
  le_most : z ≤ key.most
  unsigned : key.least = 0 → (trim value).toList.head? ≠ some '-'

end NumberKey

/-- A check of an environment. -/
inductive ConfigCheck where
  | host
  | name
  | number (key : NumberKey)

namespace ConfigCheck

/-- The checks in the order in which they are made. -/
def all : List ConfigCheck :=
  [.host, .name, .number .maxConnections, .number .pageLimitDefault, .number .pageLimitMax]

/-- A check that fails, with the error that it is reported as. The parts of an address are needed
when the address is blank. -/
inductive FailsWith (env : Environment) : ConfigCheck → ConfigError → Prop
  | host (haddress : env.present? "APP_DB_DSN" = none) (h : env.present? "APP_DB_HOST" = none) :
    FailsWith env .host (.missing "APP_DB_DSN or APP_DB_HOST")
  | name (haddress : env.present? "APP_DB_DSN" = none) (h : env.present? "APP_DB_NAME" = none) :
    FailsWith env .name (.missing "APP_DB_NAME")
  | number {key : NumberKey} {value : String} (h : env.present? key.name = some value)
    (hnumber : ∀ z, ¬key.Holds value z) :
    FailsWith env (.number key) (.invalid key.name value)

/-- The error of the first check of a list that fails. -/
inductive FirstFailure (env : Environment) : List ConfigCheck → ConfigError → Prop
  | here {check : ConfigCheck} {later : List ConfigCheck} {e : ConfigError}
    (h : check.FailsWith env e) : FirstFailure env (check :: later) e
  | later {check : ConfigCheck} {rest : List ConfigCheck} {e : ConfigError}
    (hpassed : ∀ other, ¬check.FailsWith env other) (h : FirstFailure env rest e) :
    FirstFailure env (check :: rest) e

end ConfigCheck

namespace Environment

/-- The variables that an address is put together from. -/
def addressParts : List String :=
  ["APP_DB_HOST", "APP_DB_PORT", "APP_DB_USER", "APP_DB_PASSWORD", "APP_DB_NAME"]

/-- The variables of a configuration. -/
def configKeys : List String :=
  "APP_DB_DSN" :: addressParts ++
    [NumberKey.maxConnections.name, NumberKey.pageLimitDefault.name, NumberKey.pageLimitMax.name]

/-- An address is given, or both parts of one that are needed. -/
def HasAddress (env : Environment) : Prop :=
  env.present? "APP_DB_DSN" ≠ none ∨
    (env.present? "APP_DB_HOST" ≠ none ∧ env.present? "APP_DB_NAME" ≠ none)

/-- The number that a variable gives: the one that it holds, or a fixed one when it is blank. -/
inductive Gives (env : Environment) (key : NumberKey) : Int → Prop
  | blank (h : env.present? key.name = none) : Gives env key key.whenBlank
  | held {value : String} {z : Int} (h : env.present? key.name = some value)
    (hz : key.Holds value z) : Gives env key z

/-- A configuration with the address of an environment, if it has one of its own, and the numbers
that it gives, held to limits that fit each other. -/
structure Configures (env : Environment) (config : StoreConfig) : Prop where
  address : ∀ url, env.present? "APP_DB_DSN" = some url → config.databaseUrl = url
  limitsFit : config.LimitsFit
  maxConnections : ∃ z, env.Gives .maxConnections z ∧ (config.maxConnections.toNat : Int) = max z 1
  pageLimitMax : ∃ z, env.Gives .pageLimitMax z ∧ config.pageLimitMax.toInt = max z 1
  pageLimitDefault : ∃ z, env.Gives .pageLimitDefault z ∧
    config.pageLimitDefault.toInt = min (max z 1) config.pageLimitMax.toInt

end Environment

namespace NumberKey

/-- A reader of the numbers of a variable: it reads a value exactly as the number that it holds. -/
def ReadBy {α : Type} (key : NumberKey) (read : List Char → Option α) (toInt : α → Int) : Prop :=
  ∀ value z, key.Holds value z ↔ ∃ n, read (trimChars value.toList) = some n ∧ toInt n = z

/-- Unsigned 32-bit numbers are read from the number of connections. -/
theorem readBy_readUInt32 : maxConnections.ReadBy readUInt32 fun n ↦ (n.toNat : Int) := by
  intro value z
  rw [← toList_trim]
  constructor
  · rintro ⟨hnumeral, hleast, hmost, hunsigned⟩
    simp only [least, most] at hleast hmost
    have hn : (UInt32.ofNat z.toNat).toNat = z.toNat :=
      UInt32.toNat_ofNat_of_lt' (by simp only [UInt32.size]; omega)
    have hz : ((UInt32.ofNat z.toNat).toNat : Int) = z := by omega
    refine ⟨UInt32.ofNat z.toNat, readUInt32_eq_some_iff.2 ⟨?_, hunsigned rfl⟩, hz⟩
    rw [hz]
    exact hnumeral
  · rintro ⟨n, hread, rfl⟩
    obtain ⟨hnumeral, hhead⟩ := readUInt32_eq_some_iff.1 hread
    have hlt := n.toNat_lt
    refine ⟨hnumeral, ?_, ?_, fun _ ↦ hhead⟩
    · simp only [least]
      omega
    · simp only [most]
      omega

/-- Signed 64-bit numbers are read from the other two variables. -/
theorem readBy_readInt64 {key : NumberKey} (hleast : key.least = int64Min)
    (hmost : key.most = int64Max) : key.ReadBy readInt64 Int64.toInt := by
  intro value z
  rw [← toList_trim]
  constructor
  · rintro ⟨hnumeral, hlow, hhigh, -⟩
    rw [hleast] at hlow
    rw [hmost] at hhigh
    have hz : (Int64.ofInt z).toInt = z := toInt_ofInt_of_mem ⟨hlow, hhigh⟩
    refine ⟨Int64.ofInt z, readInt64_eq_some_iff.2 ?_, hz⟩
    rw [hz]
    exact hnumeral
  · rintro ⟨n, hread, rfl⟩
    refine ⟨readInt64_eq_some_iff.1 hread, ?_, ?_, ?_⟩
    · rw [hleast]
      exact Int64.minValue_le_toInt n
    · rw [hmost]
      exact Int64.toInt_le n
    · rw [hleast]
      simp [int64Min]

end NumberKey

namespace Environment

open ConfigCheck

variable {env other : Environment}

/-! ### One check -/

section Number

variable {α : Type} {key : NumberKey} {read : List Char → Option α} {toInt : α → Int}

/-- A number is refused exactly when its check fails, and with that error. -/
theorem numberOr_eq_error_iff (hread : key.ReadBy read toInt) {absent : α} {e : ConfigError} :
    env.numberOr read key.name absent = .error e ↔ FailsWith env (.number key) e := by
  rw [numberOr]
  constructor
  · intro h
    split at h
    · cases h
    · next value hvalue =>
      split at h
      · cases h
      · next hnone =>
        cases h
        refine .number hvalue fun z hz ↦ ?_
        obtain ⟨n, hn, -⟩ := (hread value z).1 hz
        rw [hnone] at hn
        cases hn
  · intro h
    cases h with
    | @number _ value hvalue hnumber =>
      have hnone : read (trimChars value.toList) = none := by
        rw [Option.eq_none_iff_forall_ne_some]
        intro n hn
        exact hnumber (toInt n) ((hread value _).2 ⟨n, hn, rfl⟩)
      simp [hvalue, hnone]

/-- A number that is read is the one that its variable gives. -/
theorem gives_of_numberOr (hread : key.ReadBy read toInt) {absent n : α}
    (habsent : toInt absent = key.whenBlank) (h : env.numberOr read key.name absent = .ok n) :
    env.Gives key (toInt n) := by
  rw [numberOr] at h
  split at h
  · next hnone =>
    cases h
    rw [habsent]
    exact .blank hnone
  · next value hvalue =>
    split at h
    · next m hm =>
      cases h
      exact .held hvalue ((hread value _).2 ⟨n, hm, rfl⟩)
    · cases h

end Number

private theorem failsWith_host_iff {e : ConfigError} :
    FailsWith env .host e ↔ (env.present? "APP_DB_DSN" = none ∧ env.present? "APP_DB_HOST" = none) ∧
      e = .missing "APP_DB_DSN or APP_DB_HOST" := by
  constructor
  · intro h
    cases h with
    | host haddress h => exact ⟨⟨haddress, h⟩, rfl⟩
  · rintro ⟨⟨haddress, h⟩, rfl⟩
    exact .host haddress h

private theorem failsWith_name_iff {e : ConfigError} :
    FailsWith env .name e ↔ (env.present? "APP_DB_DSN" = none ∧ env.present? "APP_DB_NAME" = none) ∧
      e = .missing "APP_DB_NAME" := by
  constructor
  · intro h
    cases h with
    | name haddress h => exact ⟨⟨haddress, h⟩, rfl⟩
  · rintro ⟨⟨haddress, h⟩, rfl⟩
    exact .name haddress h

/-- There is no address exactly when one of its checks fails, and the first of them is reported. -/
theorem databaseUrl_eq_error_iff {e : ConfigError} :
    env.databaseUrl = .error e ↔
      FailsWith env .host e ∨
        (∀ earlier, ¬FailsWith env .host earlier) ∧ FailsWith env .name e := by
  rw [databaseUrl, composedUrl]
  simp only [failsWith_host_iff, failsWith_name_iff]
  cases env.present? "APP_DB_DSN" with
  | some url => simp
  | none =>
    cases env.present? "APP_DB_HOST" with
    | none => simp [eq_comm]
    | some host => cases env.present? "APP_DB_NAME" <;> simp [eq_comm]

-- A check passes when it fails with no error.
private theorem hasAddress_iff :
    env.HasAddress ↔ (∀ e, ¬FailsWith env .host e) ∧ ∀ e, ¬FailsWith env .name e := by
  simp only [HasAddress, failsWith_host_iff, failsWith_name_iff]
  cases env.present? "APP_DB_DSN" <;> simp

private theorem holdsNumber_iff {key : NumberKey} :
    (∀ value, env.present? key.name = some value → ∃ z, key.Holds value z) ↔
      ∀ e, ¬FailsWith env (.number key) e := by
  constructor
  · intro h e hfails
    cases hfails with
    | number hvalue hnumber =>
      obtain ⟨z, hz⟩ := h _ hvalue
      exact hnumber z hz
  · intro h value hvalue
    by_contra hnumber
    exact h _ (.number hvalue (not_exists.1 hnumber))

/-! ### The checks in their order -/

private theorem firstFailure_cons_iff {check : ConfigCheck} {rest : List ConfigCheck}
    {e : ConfigError} :
    FirstFailure env (check :: rest) e ↔
      check.FailsWith env e ∨ (∀ other, ¬check.FailsWith env other) ∧ FirstFailure env rest e := by
  constructor
  · intro h
    cases h with
    | here h => exact .inl h
    | later hpassed h => exact .inr ⟨hpassed, h⟩
  · rintro (h | ⟨hpassed, h⟩)
    · exact .here h
    · exact .later hpassed h

private theorem not_firstFailure_nil {e : ConfigError} : ¬FirstFailure env [] e := nofun

-- By induction on the checks: the first failure is that of the first check that fails.
private theorem forall_not_firstFailure_iff {checks : List ConfigCheck} :
    (∀ e, ¬FirstFailure env checks e) ↔ ∀ check ∈ checks, ∀ e, ¬check.FailsWith env e := by
  induction checks with
  | nil => simp [not_firstFailure_nil]
  | cons check rest ih =>
    simp only [firstFailure_cons_iff, List.forall_mem_cons, ← ih]
    constructor
    · intro h
      have hcheck : ∀ e, ¬check.FailsWith env e := fun e he ↦ h e (.inl he)
      exact ⟨hcheck, fun e he ↦ h e (.inr ⟨hcheck, he⟩)⟩
    · rintro ⟨hcheck, hrest⟩ e (he | ⟨-, he⟩)
      · exact hcheck e he
      · exact hrest e he

private theorem forall_mem_all_iff :
    (∀ check ∈ all, ∀ e, ¬check.FailsWith env e) ↔ env.HasAddress ∧
      ∀ (key : NumberKey) value, env.present? key.name = some value → ∃ z, key.Holds value z := by
  have hkeys (P : NumberKey → Prop) :
      (∀ key, P key) ↔ P .maxConnections ∧ P .pageLimitDefault ∧ P .pageLimitMax :=
    ⟨fun h ↦ ⟨h _, h _, h _⟩, fun h key ↦ by cases key <;> simp [h]⟩
  simp only [holdsNumber_iff, hkeys, hasAddress_iff, all, List.forall_mem_cons, List.not_mem_nil,
    false_imp_iff, implies_true, and_true, and_assoc]

private theorem config_eq (env : Environment) : env.config = do
    let databaseUrl ← env.databaseUrl
    let maxConnections ← env.numberOr readUInt32 NumberKey.maxConnections.name 10
    let pageLimitDefault ← env.numberOr readInt64 NumberKey.pageLimitDefault.name 30
    let pageLimitMax ← env.numberOr readInt64 NumberKey.pageLimitMax.name 100
    return ConfigSettings.build { databaseUrl, maxConnections, pageLimitDefault, pageLimitMax } :=
  rfl

/-- A configuration is made of an address and three numbers. -/
theorem config_eq_ok_iff {config : StoreConfig} :
    env.config = .ok config ↔ ∃ databaseUrl maxConnections pageLimitDefault pageLimitMax,
      env.databaseUrl = .ok databaseUrl ∧
      env.numberOr readUInt32 NumberKey.maxConnections.name 10 = .ok maxConnections ∧
      env.numberOr readInt64 NumberKey.pageLimitDefault.name 30 = .ok pageLimitDefault ∧
      env.numberOr readInt64 NumberKey.pageLimitMax.name 100 = .ok pageLimitMax ∧
      config = ConfigSettings.build
        { databaseUrl, maxConnections, pageLimitDefault, pageLimitMax } := by
  simp only [config_eq, bind_eq_ok_iff, pure, Except.pure, Except.ok.injEq, ← exists_and_left,
    eq_comm (b := config)]

-- No check but its own decides whether a number is read.
private theorem exists_numberOr_iff {α : Type} {key : NumberKey} {read : List Char → Option α}
    {toInt : α → Int} (hread : key.ReadBy read toInt) {absent : α} :
    (∃ n, env.numberOr read key.name absent = .ok n) ↔ ∀ e, ¬FailsWith env (.number key) e := by
  simp only [exists_eq_ok_iff, ne_eq, numberOr_eq_error_iff hread]

private theorem exists_databaseUrl_iff :
    (∃ url, env.databaseUrl = .ok url) ↔
      (∀ e, ¬FailsWith env .host e) ∧ ∀ e, ¬FailsWith env .name e := by
  have hchecks : (∀ e, ¬FirstFailure env [.host, .name] e) ↔
      ∀ check ∈ [ConfigCheck.host, .name], ∀ e, ¬check.FailsWith env e :=
    forall_not_firstFailure_iff
  simpa [exists_eq_ok_iff, databaseUrl_eq_error_iff, firstFailure_cons_iff, not_firstFailure_nil]
    using hchecks

/-- No configuration is made when the address or a number is refused, and the first of them that is
refused is reported. -/
theorem config_eq_error_iff {e : ConfigError} :
    env.config = .error e ↔ FirstFailure env all e := by
  have hconnections := NumberKey.readBy_readUInt32
  have hdefault : NumberKey.pageLimitDefault.ReadBy readInt64 Int64.toInt :=
    NumberKey.readBy_readInt64 rfl rfl
  have hmax : NumberKey.pageLimitMax.ReadBy readInt64 Int64.toInt :=
    NumberKey.readBy_readInt64 rfl rfl
  simp only [config_eq, bind_eq_error_iff, pure, Except.pure, reduceCtorEq, and_false, exists_false,
    or_false, exists_and_right, exists_databaseUrl_iff, databaseUrl_eq_error_iff,
    exists_numberOr_iff hconnections, numberOr_eq_error_iff hconnections,
    exists_numberOr_iff hdefault, numberOr_eq_error_iff hdefault, numberOr_eq_error_iff hmax, all,
    firstFailure_cons_iff, not_firstFailure_nil]
  tauto

/-- A configuration that is made has the address and the numbers of its environment. -/
theorem configures_of_config {config : StoreConfig} (h : env.config = .ok config) :
    env.Configures config := by
  obtain ⟨url, maxConnections, pageLimitDefault, pageLimitMax, hurl, hconnections, hdefault, hmax,
    rfl⟩ := config_eq_ok_iff.1 h
  have hgiven := gives_of_numberOr NumberKey.readBy_readUInt32 rfl hconnections
  have hgiven_default := gives_of_numberOr (NumberKey.readBy_readInt64 rfl rfl) rfl hdefault
  have hgiven_max := gives_of_numberOr (NumberKey.readBy_readInt64 rfl rfl) rfl hmax
  refine ⟨?_, ConfigSettings.limitsFit_build _, ⟨_, hgiven, ?_⟩, ⟨_, hgiven_max, ?_⟩,
    ⟨_, hgiven_default, ?_⟩⟩
  · intro address haddress
    rw [databaseUrl, haddress] at hurl
    exact (Except.ok.inj hurl).symm
  · simp only [ConfigSettings.build, UInt32.toNat_max, UInt32.toNat_one]
    omega
  · rw [ConfigSettings.build, toInt_max, Int64.toInt_one]
  · rw [ConfigSettings.build, toInt_min, toInt_max, toInt_max, Int64.toInt_one]

/-! ### What a configuration depends on -/

private theorem numberOr_congr {α : Type} {key : String}
    (h : other.present? key = env.present? key) (read : List Char → Option α) (absent : α) :
    other.numberOr read key absent = env.numberOr read key absent := by
  rw [numberOr, numberOr, h]

private theorem config_congr (hurl : other.databaseUrl = env.databaseUrl)
    (hnumbers : ∀ key : NumberKey, other.present? key.name = env.present? key.name) :
    other.config = env.config := by
  rw [config_eq, config_eq, hurl, numberOr_congr (hnumbers .maxConnections),
    numberOr_congr (hnumbers .pageLimitDefault), numberOr_congr (hnumbers .pageLimitMax)]

private theorem databaseUrl_congr
    (h : ∀ key ∈ "APP_DB_DSN" :: addressParts, other.present? key = env.present? key) :
    other.databaseUrl = env.databaseUrl := by
  simp only [addressParts, List.forall_mem_cons, List.not_mem_nil, false_imp_iff, implies_true,
    and_true] at h
  simp only [databaseUrl, composedUrl, credentials, h]

private theorem name_mem_configKeys (key : NumberKey) : key.name ∈ configKeys := by
  cases key <;> decide

private theorem name_notMem_addressParts (key : NumberKey) : key.name ∉ addressParts := by
  cases key <;> decide

/-- An environment makes a configuration exactly when it has an address and every number that it
gives is one of its range; the first check that fails is reported otherwise. What is made has the
address and the numbers of the environment, held to limits that fit each other. Nothing but its
variables counts, of which a blank one is as good as none, and beside an address of its own the
parts of an address do not count either. -/
theorem config_reads_variables (env : Environment) :
    ((∃ config, env.config = .ok config) ↔ env.HasAddress ∧
      ∀ (key : NumberKey) value, env.present? key.name = some value → ∃ z, key.Holds value z) ∧
    (∀ e, env.config = .error e ↔ FirstFailure env all e) ∧
    (∀ config, env.config = .ok config → env.Configures config) ∧
    (∀ other : Environment, (∀ key ∈ configKeys, other.present? key = env.present? key) →
      other.config = env.config) ∧
    (env.present? "APP_DB_DSN" ≠ none → ∀ other : Environment,
      (∀ key ∈ configKeys, key ∉ addressParts → other.present? key = env.present? key) →
        other.config = env.config) := by
  refine ⟨?_, fun _ ↦ config_eq_error_iff, fun _ ↦ configures_of_config, ?_, ?_⟩
  · rw [← forall_mem_all_iff, ← forall_not_firstFailure_iff, exists_eq_ok_iff]
    exact forall_congr' fun e ↦ not_congr config_eq_error_iff
  · intro other h
    refine config_congr (databaseUrl_congr fun key hkey ↦ h key ?_) fun key ↦
      h key.name (name_mem_configKeys key)
    exact List.mem_append_left _ hkey
  · intro haddress other h
    refine config_congr ?_ fun key ↦
      h key.name (name_mem_configKeys key) (name_notMem_addressParts key)
    obtain ⟨url, hurl⟩ := Option.ne_none_iff_exists'.1 haddress
    rw [databaseUrl, databaseUrl, h "APP_DB_DSN" (by decide) (by decide), hurl]

/-- A blank address is none, a default page above the largest is held to it, of two refused numbers
the first is reported with the blanks around it, and beside an address a host does not count. -/
theorem config_reads_variables_parts :
    let parts : Environment := fun key ↦ List.lookup key [("APP_DB_DSN", " "),
      ("APP_DB_HOST", "db"), ("APP_DB_NAME", "app"), ("APP_PAGE_LIMIT_DEFAULT", " +500\t"),
      ("APP_PAGE_LIMIT_MAX", "50")]
    let config : StoreConfig := ⟨"postgres://db:5432/app", 10, 50, 50⟩
    let refused : Environment := fun key ↦ List.lookup key [("APP_DB_DSN", "dsn"),
      ("APP_PAGE_LIMIT_DEFAULT", "x"), ("APP_DB_MAX_CONNECTIONS", " -0")]
    let refusal : ConfigError := .invalid "APP_DB_MAX_CONNECTIONS" " -0"
    let other : Environment := fun key ↦ if key = "APP_DB_HOST" then some "db" else refused key
    parts.config = .ok config ∧ parts.HasAddress ∧ parts.Configures config ∧
      refused.config = .error refusal ∧ FirstFailure refused all refusal ∧
      refused.present? "APP_DB_DSN" ≠ none ∧
      (∀ key ∈ configKeys, key ∉ addressParts → other.present? key = refused.present? key) ∧
      other.config = refused.config := by
  intro parts config refused refusal other
  obtain ⟨hmade, -, hconfigures, -, -⟩ := config_reads_variables parts
  obtain ⟨-, hrefused, -, -, haddress⟩ := config_reads_variables refused
  have hconfig : parts.config = .ok config := by decide +kernel
  have hrefusal : refused.config = .error refusal := by decide +kernel
  have hdsn : refused.present? "APP_DB_DSN" ≠ none := by decide +kernel
  have hsame : ∀ key ∈ configKeys, key ∉ addressParts →
      other.present? key = refused.present? key := by
    decide +kernel
  exact ⟨hconfig, (hmade.1 ⟨config, hconfig⟩).1, hconfigures config hconfig, hrefusal,
    (hrefused refusal).1 hrefusal, hdsn, hsame, haddress hdsn other hsame⟩

/-! ### What a loader may add -/

section Loader

variable {later : Environment} {load : Environment → Environment}

/-- A variable that is set counts as it is in every environment that extends its own, also when it
is set to blanks and so counts as absent. -/
theorem Extends.present?_eq (h : later.Extends env) {key : String} (hset : env key ≠ none) :
    later.present? key = env.present? key := by
  obtain ⟨value, hvalue⟩ := Option.ne_none_iff_exists'.1 hset
  rw [present?, present?, hvalue, h hvalue]

-- A variable with a value that is not blank is set.
private theorem ne_none_of_present? {key value : String} (h : env.present? key = some value) :
    env key ≠ none := by
  intro hnone
  rw [present?, hnone] at h
  cases h

/-- A loader has no say where every variable of a configuration is set already. -/
theorem configAfter_eq_config (hload : (load env).Extends env)
    (hset : ∀ key ∈ configKeys, env key ≠ none) : env.configAfter load = env.config := by
  have hsame : ∀ key ∈ configKeys, (load env).present? key = env.present? key :=
    fun key hkey ↦ hload.present?_eq (hset key hkey)
  refine config_congr (databaseUrl_congr fun key hkey ↦ hsame key ?_) fun key ↦
    hsame key.name (name_mem_configKeys key)
  exact List.mem_append_left _ hkey

/-- Variables that are set already win over those that a loader adds: the address and the numbers of
a configuration are the ones that the environment had, as far as it had them. -/
theorem configures_configAfter (hload : (load env).Extends env) {config : StoreConfig}
    (h : env.configAfter load = .ok config) :
    (load env).Configures config ∧
      (∀ url, env.present? "APP_DB_DSN" = some url → config.databaseUrl = url) ∧
      ∀ key : NumberKey, env key.name ≠ none → ∀ z, (load env).Gives key z ↔ env.Gives key z := by
  have hconfigures : (load env).Configures config := configures_of_config h
  refine ⟨hconfigures, fun url hurl ↦ ?_, fun key hset z ↦ ?_⟩
  · apply hconfigures.address
    rw [hload.present?_eq (ne_none_of_present? hurl), hurl]
  · have hsame := hload.present?_eq hset
    constructor
    · rintro (hnone | ⟨hvalue, hz⟩)
      · exact .blank (hsame ▸ hnone)
      · exact .held (hsame ▸ hvalue) hz
    · rintro (hnone | ⟨hvalue, hz⟩)
      · exact .blank (hsame.trans hnone)
      · exact .held (hsame.trans hvalue) hz

end Loader

end Environment

end RecordStore
