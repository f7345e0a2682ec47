/-
# The connection string

libpq reads back from the connection string exactly the settings of the configuration, in
the order in which they were written: no value can add, remove or alter another setting.
-/
import GmsvPg.Postgres.ConnectionConfig

namespace GmsvPg

open Library.Conninfo LibpqExecutor

namespace ConnectionConfig

/-! ### Characters -/

/-- The characters of option keys and numbers mean nothing to the parser. -/
lemma of_isSafe {c : Char} (h : (isalnum c || c == '_') = true) :
    c ≠ '=' ∧ isSpace c = false ∧ c ≠ '\'' ∧ c ≠ '\\' ∧ c ≠ '\x00' := by
  have hne (d : Char) (hd : (isalnum d || d == '_') = false) : c ≠ d := by
    rintro rfl
    rw [hd] at h
    cases h
  refine ⟨hne _ (by decide), ?_, hne _ (by decide), hne _ (by decide), hne _ (by decide)⟩
  simp [isSpace, hne ' ' (by decide), hne '\t' (by decide), hne '\n' (by decide),
    hne '\x0b' (by decide), hne '\x0c' (by decide), hne '\r' (by decide)]

lemma isSafe_of_mem_decimal {c : Char} {n : UInt32} (h : c ∈ decimal n) :
    (isalnum c || c == '_') = true := by
  have hdigit : c.isDigit = true := Nat.isDigit_of_mem_toDigits (by decide) (by decide) h
  simp [isalnum, Char.isAlphanum, hdigit]

lemma isSafe_of_mem_key {key : Text} (h : isSafeOptionKey key = true) :
    key ≠ [] ∧ ∀ c ∈ key, (isalnum c || c == '_') = true := by
  rw [isSafeOptionKey, Bool.and_eq_true, List.all_eq_true] at h
  obtain ⟨hne, hall⟩ := h
  refine ⟨?_, hall⟩
  rintro rfl
  cases hne

lemma isKeyword_of_isSafe {key : Text} (h : isSafeOptionKey key = true) : IsKeyword key := by
  obtain ⟨hne, hall⟩ := isSafe_of_mem_key h
  refine ⟨hne, fun c hc => ?_⟩
  obtain ⟨heq, hspace, -⟩ := of_isSafe (hall c hc)
  exact ⟨heq, hspace⟩

lemma isBare_decimal (n : UInt32) : IsBare (decimal n) := by
  refine ⟨Nat.toDigits_ne_nil, fun c hc => ?_⟩
  obtain ⟨-, hspace, hquote, hescape, -⟩ := of_isSafe (isSafe_of_mem_decimal hc)
  exact ⟨hspace, hquote, hescape⟩

lemma isBare_sslModeName (mode : SSLMode) : IsBare (sslModeName mode) := by
  have hplain : ((sslModeName mode).all fun c => !isSpace c && c != '\'' && c != '\\') = true := by
    cases mode <;> decide
  refine ⟨by cases mode <;> decide, fun c hc => ?_⟩
  simpa [and_assoc] using List.all_eq_true.1 hplain c hc

lemma nul_notMem_sslModeName (mode : SSLMode) : '\x00' ∉ sslModeName mode := by
  cases mode <;> decide

/-! ### What the parts of the string encode -/

lemma quotedForm_flatMap (value : Text) :
    QuotedForm value
      (value.flatMap fun ch => if ch = '\\' ∨ ch = '\'' then ['\\', ch] else [ch]) := by
  induction value with
  | nil => exact .nil
  | cons ch value ih =>
      rw [List.flatMap_cons]
      by_cases h : ch = '\\' ∨ ch = '\''
      · rw [if_pos h]
        exact .escaped ih
      · rw [if_neg h]
        exact .plain (fun hescape => h (.inl hescape)) (fun hquote => h (.inr hquote)) ih

lemma encodes_add {key : Text} (hkey : IsKeyword key) (value : Text) :
    Encodes ([(key, value)].filter isGiven) (add key value) := by
  cases value with
  | nil => exact .nil
  | cons ch value =>
      have hencodes := Encodes.quoted hkey (quotedForm_flatMap (ch :: value)) .nil
      simpa [add, quoteConninfoValue, isGiven] using hencodes

lemma encodes_bare {key value : Text} (hkey : IsKeyword key) (hvalue : IsBare value) :
    Encodes ([(key, value)].filter isGiven) (key ++ '=' :: value ++ [' ']) := by
  cases value with
  | nil => exact absurd rfl hvalue.ne_nil
  | cons ch value => exact .bare hkey hvalue .nil

lemma encodes_optionTable {table : List (Text × Text)}
    (h : ∀ option ∈ table, isSafeOptionKey option.1 = true) :
    Encodes (table.filter isGiven) (table.flatMap fun option => add option.1 option.2) := by
  induction table with
  | nil => exact .nil
  | cons option rest ih =>
      have hfirst := encodes_add (isKeyword_of_isSafe (h option List.mem_cons_self)) option.2
      have happend := hfirst.append (ih fun o ho => h o (List.mem_cons_of_mem _ ho))
      rw [← List.filter_append, List.singleton_append] at happend
      rwa [List.flatMap_cons]

/-! ### Well-formed configurations -/

/-- The strings that are written as values. -/
def values (config : ConnectionConfig) : List Text :=
  [config.host, config.username, config.password, config.database, config.unixSocket] ++
    config.optionTable.map Prod.snd ++
    [config.sslSettings.key, config.sslSettings.cert, config.sslSettings.ca]

/-- What the constructors and the setters check. -/
structure WellFormed (config : ConnectionConfig) : Prop where
  notRaw : config.useRawConnectionString = false
  keys : ∀ option ∈ config.optionTable, isSafeOptionKey option.1 = true
  values : ∀ value ∈ config.values, '\x00' ∉ value

variable {config config' : ConnectionConfig}

lemma containsNul_eq_false {value : Text} : containsNul value = false ↔ '\x00' ∉ value := by
  rw [containsNul, decide_eq_false_iff_not]

lemma WellFormed.of_positional {host username password database unixSocket : Text} {port : UInt32}
    (h : positional host username password database port unixSocket = .ok config) :
    config.WellFormed := by
  unfold positional at h
  split at h
  · cases h
  · rename_i hnul
    cases h
    simp only [Bool.or_eq_true, not_or, Bool.not_eq_true, containsNul_eq_false] at hnul
    obtain ⟨⟨⟨⟨hhost, husername⟩, hpassword⟩, hdatabase⟩, hunixSocket⟩ := hnul
    exact
      { notRaw := rfl
        keys := by simp
        values := by simp [ConnectionConfig.values, *] }

lemma of_checkOptions {table : List (Text × Text)} (h : checkOptions table = .ok ()) :
    ∀ option ∈ table, isSafeOptionKey option.1 = true ∧ '\x00' ∉ option.2 := by
  induction table with
  | nil => simp
  | cons option rest ih =>
      unfold checkOptions at h
      split at h
      · cases h
      · rename_i hkey
        split at h
        · cases h
        · rename_i hnul
          intro o ho
          rcases List.mem_cons.1 ho with rfl | ho
          · exact ⟨by simpa using hkey, containsNul_eq_false.1 (Bool.eq_false_iff.2 hnul)⟩
          · exact ih h o ho

/-- A configuration made from an option table. -/
lemma of_options {table : List (Text × Text)} (h : options table = .ok config) :
    config = { optionTable := table } ∧ checkOptions table = .ok () := by
  unfold options at h
  split at h
  · cases h
  · cases h
    exact ⟨rfl, ‹_›⟩

lemma WellFormed.of_options {table : List (Text × Text)} (h : options table = .ok config) :
    config.WellFormed := by
  obtain ⟨rfl, hcheck⟩ := ConnectionConfig.of_options h
  have hoption := of_checkOptions hcheck
  refine
    { notRaw := rfl
      keys := fun option ho => (hoption option ho).1
      values := ?_ }
  intro value hvalue
  simp only [ConnectionConfig.values, List.mem_append, List.mem_cons, List.not_mem_nil, or_false,
    or_self, List.mem_map] at hvalue
  rcases hvalue with (rfl | ⟨option, ho, rfl⟩) | rfl
  · exact List.not_mem_nil
  · exact (hoption option ho).2
  · exact List.not_mem_nil

/-- A setter that succeeds. -/
lemma apply_cases {setter : Setter} (h : setter.apply config = .ok config') :
    (∃ timeout, setter = .setConnectTimeout timeout ∧
        config' = { config with connectTimeout := timeout }) ∨
      (∃ mode, setter = .setSSLMode mode ∧
        config' = { config with hasSSLMode := true, sslMode := mode }) ∨
      (∃ settings, setter = .setSSLSettings settings ∧
        config' = { config with sslSettings := settings } ∧
        '\x00' ∉ settings.key ∧ '\x00' ∉ settings.cert ∧ '\x00' ∉ settings.ca) := by
  cases setter with
  | setConnectTimeout timeout =>
      unfold Setter.apply setConnectTimeout at h
      simp only at h
      split at h
      · cases h
      · cases h
        exact .inl ⟨timeout, rfl, rfl⟩
  | setSSLMode mode =>
      unfold Setter.apply setSSLMode at h
      simp only at h
      split at h
      · cases h
      · cases h
        exact .inr (.inl ⟨mode, rfl, rfl⟩)
  | setSSLSettings settings =>
      unfold Setter.apply setSSLSettings at h
      simp only at h
      split at h
      · cases h
      · split at h
        · cases h
        · split at h
          · cases h
          · rename_i hnul
            cases h
            simp only [Bool.or_eq_true, not_or, Bool.not_eq_true, containsNul_eq_false] at hnul
            exact .inr (.inr ⟨settings, rfl, rfl, hnul.1.1, hnul.1.2, hnul.2⟩)

lemma WellFormed.apply {setter : Setter} (hconfig : config.WellFormed)
    (h : setter.apply config = .ok config') : config'.WellFormed := by
  rcases apply_cases h with ⟨timeout, -, rfl⟩ | ⟨mode, -, rfl⟩ | ⟨settings, -, rfl, hkey, hcert, hca⟩
  · exact ⟨hconfig.notRaw, hconfig.keys, hconfig.values⟩
  · exact ⟨hconfig.notRaw, hconfig.keys, hconfig.values⟩
  · refine ⟨hconfig.notRaw, hconfig.keys, ?_⟩
    intro value hvalue
    have hold := hconfig.values value
    simp only [ConnectionConfig.values, List.mem_append, List.mem_cons, List.not_mem_nil,
      or_false] at hvalue hold
    rcases hvalue with hvalue | rfl | rfl | rfl
    · exact hold (.inl hvalue)
    · exact hkey
    · exact hcert
    · exact hca

lemma WellFormed.applySetters {setters : List Setter} (hconfig : config.WellFormed)
    (h : applySetters config setters = .ok config') : config'.WellFormed := by
  induction setters generalizing config with
  | nil =>
      cases h
      exact hconfig
  | cons setter rest ih =>
      unfold GmsvPg.applySetters at h
      split at h
      · cases h
      · rename_i config'' hsetter
        exact ih (hconfig.apply hsetter) h

/-- Every configuration is well formed. -/
lemma WellFormed.of_configure {source : Source} {setters : List Setter}
    (h : configure source setters = .ok config) : config.WellFormed := by
  unfold configure at h
  split at h
  · cases h
  · rename_i config' hcreate
    cases source with
    | positional host username password database port unixSocket =>
        exact (WellFormed.of_positional hcreate).applySetters h
    | options table => exact (WellFormed.of_options hcreate).applySetters h

/-! ### The round trip -/

lemma encodes_port (port : UInt32) :
    Encodes ([("port".toList, if port = 0 then [] else decimal port)].filter isGiven)
      (if port ≠ 0 then "port=".toList ++ decimal port ++ " ".toList else []) := by
  by_cases h : port = 0
  · rw [if_pos h, if_neg (not_not.2 h)]
    exact .nil
  · rw [if_neg h, if_pos h]
    exact @encodes_bare "port".toList _ (isKeyword_of_isSafe (by decide)) (isBare_decimal port)

lemma encodes_connectTimeout (timeout : UInt32) :
    Encodes ([("connect_timeout".toList, if timeout = 0 then [] else decimal timeout)].filter
        isGiven)
      (if 0 < timeout then "connect_timeout=".toList ++ decimal timeout ++ " ".toList else []) := by
  by_cases h : timeout = 0
  · rw [if_pos h, if_neg (by rw [h]; decide)]
    exact .nil
  · rw [if_neg h, if_pos (UInt32.pos_iff_ne_zero.2 h)]
    exact @encodes_bare "connect_timeout".toList _ (isKeyword_of_isSafe (by decide))
      (isBare_decimal timeout)

lemma encodes_sslMode (hasSSLMode : Bool) (mode : SSLMode) :
    Encodes ([("sslmode".toList, if hasSSLMode then sslModeName mode else [])].filter isGiven)
      (if hasSSLMode then
        match mode with
        | .disabled => "sslmode=disable ".toList
        | .preferred => "sslmode=prefer ".toList
        | .required => "sslmode=require ".toList
        | .verifyCa => "sslmode=verify-ca ".toList
        | .verifyIdentity => "sslmode=verify-full ".toList
      else []) := by
  cases hasSSLMode with
  | false => exact .nil
  | true =>
      have hencodes := @encodes_bare "sslmode".toList _ (isKeyword_of_isSafe (by decide))
        (isBare_sslModeName mode)
      cases mode <;> exact hencodes

variable {config : ConnectionConfig}

lemma encodes_buildConnectionString (h : config.WellFormed) :
    Encodes config.settings config.buildConnectionString := by
  rw [buildConnectionString, h.notRaw, if_neg Bool.false_ne_true, settings, fields]
  simp only [List.filter_append]
  have hadd (key : Text) (hkey : isSafeOptionKey key = true) (value : Text) :=
    encodes_add (isKeyword_of_isSafe hkey) value
  refine .append (.append (.append ?_ (hadd "sslkey".toList (by decide) _))
    (hadd "sslcert".toList (by decide) _)) (hadd "sslrootcert".toList (by decide) _)
  refine .append (.append (.append ?_ (encodes_optionTable h.keys))
    (encodes_connectTimeout config.connectTimeout))
    (encodes_sslMode config.hasSSLMode config.sslMode)
  exact .append (.append (.append (.append (hadd "host".toList (by decide) _)
    (hadd "user".toList (by decide) _)) (hadd "password".toList (by decide) _))
    (hadd "dbname".toList (by decide) _)) (encodes_port config.port)

lemma nul_notMem_of_isSafe {text : Text} (h : ∀ c ∈ text, (isalnum c || c == '_') = true) :
    '\x00' ∉ text := by
  intro hmem
  exact absurd (h _ hmem) (by decide)

lemma nul_notMem_decimal (n : UInt32) : '\x00' ∉ decimal n :=
  nul_notMem_of_isSafe fun _ hc => isSafe_of_mem_decimal hc

lemma nul_notMem_settings (h : config.WellFormed) :
    ∀ setting ∈ config.settings, '\x00' ∉ setting.1 ∧ '\x00' ∉ setting.2 := by
  intro setting hsetting
  have hfield := List.mem_of_mem_filter hsetting
  have hvalues := h.values
  simp only [values, List.cons_append, List.nil_append, List.forall_mem_cons,
    List.forall_mem_append] at hvalues
  obtain ⟨hhost, husername, hpassword, hdatabase, hunixSocket, htable, hkey, hcert, hca, -⟩ :=
    hvalues
  have hgives (key : Text) (hsafe : isSafeOptionKey key = true) {value : Text}
      (hnul : '\x00' ∉ value) : '\x00' ∉ key ∧ '\x00' ∉ value :=
    ⟨nul_notMem_of_isSafe (isSafe_of_mem_key hsafe).2, hnul⟩
  have hnumber (n : UInt32) : '\x00' ∉ if n = 0 then [] else decimal n := by
    split
    · exact List.not_mem_nil
    · exact nul_notMem_decimal n
  simp only [fields, List.mem_append, List.mem_singleton] at hfield
  rcases hfield with (((((((((rfl | rfl) | rfl) | rfl) | rfl) | hoption) | rfl) | rfl) | rfl) |
    rfl) | rfl
  · refine hgives "host".toList (by decide) ?_
    split
    · exact hhost
    · exact hunixSocket
  · exact hgives "user".toList (by decide) husername
  · exact hgives "password".toList (by decide) hpassword
  · exact hgives "dbname".toList (by decide) hdatabase
  · exact hgives "port".toList (by decide) (hnumber config.port)
  · exact hgives setting.1 (h.keys setting hoption) (htable _ (List.mem_map_of_mem hoption))
  · exact hgives "connect_timeout".toList (by decide) (hnumber config.connectTimeout)
  · refine hgives "sslmode".toList (by decide) ?_
    split
    · exact nul_notMem_sslModeName config.sslMode
    · exact List.not_mem_nil
  · exact hgives "sslkey".toList (by decide) hkey
  · exact hgives "sslcert".toList (by decide) hcert
  · exact hgives "sslrootcert".toList (by decide) hca

/-- libpq reads the settings of a well-formed configuration. -/
lemma parse_buildConnectionString (h : config.WellFormed) :
    parse (cString config.buildConnectionString) = some config.settings := by
  have hencodes := encodes_buildConnectionString h
  rw [cString_of_notMem (hencodes.notMem (by decide) (nul_notMem_settings h))]
  exact parse_of_encodes hencodes

end ConnectionConfig

/-- However a configuration is made and changed, libpq reads from its connection string
exactly the settings that are given, in the order in which they are written. -/
theorem connection_string_read_back (source : Source) (setters : List Setter)
    (config : ConnectionConfig) (h : configure source setters = .ok config) :
    parse (cString config.buildConnectionString) = some config.settings :=
  ConnectionConfig.parse_buildConnectionString (ConnectionConfig.WellFormed.of_configure h)

/-- A password that tries to switch off TLS. -/
def injection : Source :=
  .positional "localhost".toList "postgres".toList "x' sslmode=disable \\".toList "test".toList 5432
    []

theorem connection_string_read_back_injection :
    ∃ config, configure injection [.setSSLMode .required, .setConnectTimeout 3] = .ok config ∧
      parse (cString config.buildConnectionString) = some config.settings :=
  ⟨_, rfl, connection_string_read_back injection [.setSSLMode .required, .setConnectTimeout 3] _ rfl⟩

/-- Configurations with the same connection string have the same settings. -/
theorem settings_injective {source source' : Source} {setters setters' : List Setter}
    {config config' : ConnectionConfig} (h : configure source setters = .ok config)
    (h' : configure source' setters' = .ok config')
    (hstring : config.buildConnectionString = config'.buildConnectionString) :
    config.settings = config'.settings := by
  have hread := ConnectionConfig.parse_buildConnectionString (ConnectionConfig.WellFormed.of_configure h)
  have hread' :=
    ConnectionConfig.parse_buildConnectionString (ConnectionConfig.WellFormed.of_configure h')
  rw [hstring, hread'] at hread
  exact (Option.some.inj hread).symm

end GmsvPg
