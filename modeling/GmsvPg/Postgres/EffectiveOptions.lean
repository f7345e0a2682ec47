/-
# The options that take effect

Where a keyword occurs several times in a connection string the last value counts.  For a
configuration made from an option table, each keyword should have the value that a setter has
given it, otherwise the one in the table, and otherwise its default.  `connect_timeout` is
written after the table whether or not `setConnectTimeout` was called, so that the default
overrides the table.
-/
import GmsvPg.Postgres.ConnectionString
import Mathlib.Data.List.Lemmas

namespace GmsvPg

open Library.Conninfo LibpqExecutor ConnectionConfig

/-! ### What is asked for -/

namespace Setter

def timeout? : Setter → Option UInt32
  | setConnectTimeout timeout => some timeout
  | _ => none

def mode? : Setter → Option SSLMode
  | setSSLMode mode => some mode
  | _ => none

def settings? : Setter → Option SSLSettings
  | setSSLSettings settings => some settings
  | _ => none

end Setter

/-- The last call of a setter counts. -/
def lastCall {α : Type} (get : Setter → Option α) (setters : List Setter) : Option α :=
  (setters.filterMap get).getLast?

/-- A setting that is not empty. -/
def given (value : Text) : Option Text := if value.isEmpty then none else some value

/-- The value that the setters give a keyword. -/
def requested (setters : List Setter) (key : Text) : Option Text :=
  if key = "connect_timeout".toList then (lastCall Setter.timeout? setters).map decimal
  else if key = "sslmode".toList then (lastCall Setter.mode? setters).map sslModeName
  else if key = "sslkey".toList then
    (lastCall Setter.settings? setters).bind fun settings => given settings.key
  else if key = "sslcert".toList then
    (lastCall Setter.settings? setters).bind fun settings => given settings.cert
  else if key = "sslrootcert".toList then
    (lastCall Setter.settings? setters).bind fun settings => given settings.ca
  else none

/-- The last value in the table that is not empty. -/
def tableValue (table : List (Text × Text)) (key : Text) : Option Text :=
  lastValue key (table.filter isGiven)

def defaultValue (key : Text) : Option Text :=
  if key = "connect_timeout".toList then some "10".toList else none

/-- The value that a keyword should have. -/
def expectedValue (table : List (Text × Text)) (setters : List Setter) (key : Text) : Option Text :=
  ((requested setters key).or (tableValue table key)).or (defaultValue key)

/-- Every keyword has the value that it should have. -/
def TakesEffect (table : List (Text × Text)) (setters : List Setter) (config : ConnectionConfig) :
    Prop :=
  ∃ settings, parse (cString config.buildConnectionString) = some settings ∧
    ∀ key, lastValue key settings = expectedValue table setters key

/-- The table and the setters ask for no other timeout than the one that is written. -/
def TimeoutAgrees (table : List (Text × Text)) (setters : List Setter) : Prop :=
  match lastCall Setter.timeout? setters with
  | none =>
      tableValue table "connect_timeout".toList = none ∨
        tableValue table "connect_timeout".toList = some "10".toList
  | some timeout =>
      timeout = 0 → tableValue table "connect_timeout".toList = some "0".toList

/-! ### The configuration after the setters -/

section setters

variable {config config' : ConnectionConfig} {setters : List Setter} {table : List (Text × Text)}

lemma lastCall_cons {α : Type} (get : Setter → Option α) (setter : Setter) (rest : List Setter) :
    lastCall get (setter :: rest) = (lastCall get rest).or (get setter) := by
  unfold lastCall
  cases hget : get setter with
  | none => rw [List.filterMap_cons_none hget, Option.or_none]
  | some a =>
      rw [List.filterMap_cons_some hget, List.getLast?_cons]
      cases (rest.filterMap get).getLast? <;> rfl

/-- What the setters leave in a configuration. -/
structure Applied (config config' : ConnectionConfig) (setters : List Setter) : Prop where
  connectTimeout :
    config'.connectTimeout = (lastCall Setter.timeout? setters).getD config.connectTimeout
  hasSSLMode :
    config'.hasSSLMode = ((lastCall Setter.mode? setters).isSome || config.hasSSLMode)
  sslMode : config'.sslMode = (lastCall Setter.mode? setters).getD config.sslMode
  sslSettings : config'.sslSettings = (lastCall Setter.settings? setters).getD config.sslSettings
  rest : config' =
    { config with
      connectTimeout := config'.connectTimeout
      hasSSLMode := config'.hasSSLMode
      sslMode := config'.sslMode
      sslSettings := config'.sslSettings }

lemma Applied.cons {config'' : ConnectionConfig} {setter : Setter} {rest : List Setter}
    (hsetter : setter.apply config = .ok config'') (h : Applied config'' config' rest) :
    Applied config config' (setter :: rest) := by
  rcases apply_cases hsetter with ⟨timeout, rfl, rfl⟩ | ⟨mode, rfl, rfl⟩ | ⟨settings, rfl, rfl, -⟩
  all_goals
    refine ⟨?_, ?_, ?_, ?_, ?_⟩
    · rw [h.connectTimeout, lastCall_cons]
      cases lastCall Setter.timeout? rest <;> rfl
    · rw [h.hasSSLMode, lastCall_cons]
      cases lastCall Setter.mode? rest <;> rfl
    · rw [h.sslMode, lastCall_cons]
      cases lastCall Setter.mode? rest <;> rfl
    · rw [h.sslSettings, lastCall_cons]
      cases lastCall Setter.settings? rest <;> rfl
    · exact h.rest

lemma applied_applySetters (h : applySetters config setters = .ok config') :
    Applied config config' setters := by
  induction setters generalizing config with
  | nil =>
      cases h
      exact ⟨rfl, rfl, rfl, rfl, rfl⟩
  | cons setter rest ih =>
      unfold applySetters at h
      split at h
      · cases h
      · rename_i config'' hsetter
        exact .cons hsetter (ih h)

/-- A configuration made from an option table and changed by setters. -/
lemma applied_options (h : configure (.options table) setters = .ok config) :
    Applied { optionTable := table } config setters := by
  unfold configure at h
  split at h
  · cases h
  · rename_i config' hcreate
    obtain ⟨rfl, -⟩ := of_options hcreate
    exact applied_applySetters h

end setters

/-! ### The effective values -/

section effective

variable {config : ConnectionConfig} {setters : List Setter} {table : List (Text × Text)}

lemma given_nil : given [] = none := rfl

lemma given_of_ne_nil {value : Text} (h : value ≠ []) : given value = some value := by
  cases value with
  | nil => exact absurd rfl h
  | cons ch value => rfl

lemma lastValue_field (key other value : Text) :
    lastValue key ([(other, value)].filter isGiven) = if key = other then given value else none := by
  cases value with
  | nil => simp [isGiven, lastValue, given]
  | cons ch value => simp [isGiven, lastValue, given, eq_comm]

/-- What is written after the option table for a keyword. -/
def derivedValue (config : ConnectionConfig) (key : Text) : Option Text :=
  if key = "connect_timeout".toList then
    given (if config.connectTimeout = 0 then [] else decimal config.connectTimeout)
  else if key = "sslmode".toList then
    given (if config.hasSSLMode then sslModeName config.sslMode else [])
  else if key = "sslkey".toList then given config.sslSettings.key
  else if key = "sslcert".toList then given config.sslSettings.cert
  else if key = "sslrootcert".toList then given config.sslSettings.ca
  else none

/-- The last value of a keyword: what is written after the table, or the table's. -/
lemma lastValue_settings (h : Applied { optionTable := table } config setters) (key : Text) :
    lastValue key config.settings = (derivedValue config key).or (tableValue table key) := by
  have hposition : config.host = [] ∧ config.unixSocket = [] ∧ config.username = [] ∧
      config.password = [] ∧ config.database = [] ∧ config.port = 0 ∧
        config.optionTable = table := by
    rw [h.rest]
    exact ⟨rfl, rfl, rfl, rfl, rfl, rfl, rfl⟩
  obtain ⟨hhost, hunixSocket, husername, hpassword, hdatabase, hport, htable⟩ := hposition
  rw [settings, fields, hhost, hunixSocket, husername, hpassword, hdatabase, hport, htable]
  simp only [List.filter_append, lastValue_append, lastValue_field, given_nil, ite_self, if_true,
    Option.or_none]
  unfold derivedValue tableValue
  by_cases htimeout : key = "connect_timeout".toList
  · subst htimeout
    simp
  by_cases hmode : key = "sslmode".toList
  · subst hmode
    simp
  by_cases hkey : key = "sslkey".toList
  · subst hkey
    simp
  by_cases hcert : key = "sslcert".toList
  · subst hcert
    simp
  · simp only [htimeout, hmode, hkey, hcert, if_false, Option.none_or]

/-- Apart from the timeout, what is written after the table is what the setters ask for. -/
lemma derivedValue_of_ne (h : Applied { optionTable := table } config setters) {key : Text}
    (hne : key ≠ "connect_timeout".toList) : derivedValue config key = requested setters key := by
  have hmode : given (if config.hasSSLMode then sslModeName config.sslMode else []) =
      (lastCall Setter.mode? setters).map sslModeName := by
    rw [h.hasSSLMode, h.sslMode]
    cases lastCall Setter.mode? setters with
    | none => rfl
    | some mode => exact given_of_ne_nil (isBare_sslModeName mode).ne_nil
  have hsettings (get : SSLSettings → Text) (hget : get {} = []) :
      given (get config.sslSettings) =
        (lastCall Setter.settings? setters).bind fun settings => given (get settings) := by
    rw [h.sslSettings]
    cases lastCall Setter.settings? setters with
    | none => exact congrArg given hget
    | some settings => rfl
  unfold derivedValue requested
  rw [if_neg hne, if_neg hne, hmode, hsettings SSLSettings.key rfl, hsettings SSLSettings.cert rfl,
    hsettings SSLSettings.ca rfl]

/-- The timeout that is written after the table: the default too. -/
lemma derivedValue_connectTimeout (h : Applied { optionTable := table } config setters) :
    derivedValue config "connect_timeout".toList =
      match lastCall Setter.timeout? setters with
      | none => some "10".toList
      | some timeout => if timeout = 0 then none else some (decimal timeout) := by
  unfold derivedValue
  rw [if_pos rfl, h.connectTimeout]
  cases lastCall Setter.timeout? setters with
  | none =>
      have hten : decimal 10 = "10".toList := by decide
      have hne : (10 : UInt32) ≠ 0 := by decide
      exact (congrArg given (if_neg hne)).trans (congrArg given hten)
  | some timeout =>
      by_cases hzero : timeout = 0
      · simp only [Option.getD_some, if_pos hzero]
        rfl
      · simp only [Option.getD_some, if_neg hzero]
        exact given_of_ne_nil (isBare_decimal timeout).ne_nil

lemma requested_connectTimeout (setters : List Setter) :
    requested setters "connect_timeout".toList = (lastCall Setter.timeout? setters).map decimal :=
  if_pos rfl

/-- The timeout is the expected one if and only if the table and the setters agree with it. -/
lemma connectTimeout_iff (h : Applied { optionTable := table } config setters) :
    lastValue "connect_timeout".toList config.settings =
        expectedValue table setters "connect_timeout".toList ↔
      TimeoutAgrees table setters := by
  have hdefault : defaultValue "connect_timeout".toList = some "10".toList := if_pos rfl
  rw [lastValue_settings h, derivedValue_connectTimeout h, expectedValue, requested_connectTimeout,
    hdefault]
  unfold TimeoutAgrees
  cases lastCall Setter.timeout? setters with
  | none =>
      simp only [Option.some_or, Option.map_none, Option.none_or]
      cases tableValue table "connect_timeout".toList with
      | none => exact iff_of_true rfl (.inl rfl)
      | some value =>
          simp only [Option.some_or, Option.some.injEq, reduceCtorEq, false_or]
          exact eq_comm
  | some timeout =>
      by_cases hzero : timeout = 0
      · subst hzero
        simp only [if_true, Option.none_or, Option.map_some, Option.some_or, true_imp_iff]
        rfl
      · simp only [hzero, if_false, Option.map_some, Option.some_or, false_imp_iff]

end effective

/-- In a configuration made from an option table, every keyword has the value that the
setters, the table and the default ask for, if and only if the timeout has. -/
theorem options_take_effect (table : List (Text × Text)) (setters : List Setter)
    (config : ConnectionConfig) (h : configure (.options table) setters = .ok config) :
    TakesEffect table setters config ↔ TimeoutAgrees table setters := by
  have hread := parse_buildConnectionString (WellFormed.of_configure h)
  have happlied := applied_options h
  constructor
  · rintro ⟨settings, hsettings, hvalues⟩
    rw [hread, Option.some.injEq] at hsettings
    rw [← connectTimeout_iff happlied, hsettings]
    exact hvalues _
  · intro hagrees
    refine ⟨config.settings, hread, fun key => ?_⟩
    by_cases hkey : key = "connect_timeout".toList
    · rw [hkey]
      exact (connectTimeout_iff happlied).2 hagrees
    · have hdefault : defaultValue key = none := if_neg hkey
      rw [lastValue_settings happlied, derivedValue_of_ne happlied hkey, expectedValue, hdefault,
        Option.or_none]

/-- A table that asks for a timeout of three seconds. -/
def threeSeconds : List (Text × Text) :=
  [("host".toList, "localhost".toList), ("connect_timeout".toList, "3".toList)]

theorem options_take_effect_threeSeconds :
    ∃ config, configure (.options threeSeconds) [.setConnectTimeout 5] = .ok config ∧
      (TakesEffect threeSeconds [.setConnectTimeout 5] config ↔
        TimeoutAgrees threeSeconds [.setConnectTimeout 5]) :=
  ⟨_, rfl, options_take_effect threeSeconds [.setConnectTimeout 5] _ rfl⟩

/-- The default overrides the timeout of the table. -/
theorem timeout_overridden :
    ∃ config, configure (.options threeSeconds) [] = .ok config ∧
      ¬ TakesEffect threeSeconds [] config := by
  refine ⟨_, rfl, ?_⟩
  rintro ⟨settings, hsettings, hvalues⟩
  have hread := parse_buildConnectionString
    (WellFormed.of_configure (rfl : configure (.options threeSeconds) [] = .ok _))
  rw [hread, Option.some.injEq] at hsettings
  have hvalue := hvalues "connect_timeout".toList
  rw [← hsettings] at hvalue
  exact absurd hvalue (by decide)

end GmsvPg
