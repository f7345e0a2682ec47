/-
# Connection options

`ConnectionConfig`: the positional fields, the option table and the setters, and the
connection string that is built from them.  A configuration is made once and then changed by
calls of the setters; a call that throws changes nothing.
-/
import GmsvPg.Library.Conninfo
import GmsvPg.Postgres.LibpqExecutor

namespace GmsvPg

open Library.Conninfo LibpqExecutor

/-- `SSLMode`. -/
inductive SSLMode
  | disabled
  | preferred
  | required
  | verifyCa
  | verifyIdentity
deriving DecidableEq, Repr

/-- `SSLSettings`. -/
structure SSLSettings where
  key : Text := []
  cert : Text := []
  ca : Text := []
  capath : Text := []
  cipher : Text := []
deriving DecidableEq, Repr

/-- `ConnectionConfig`; an `unsigned int` is a `UInt32`. -/
structure ConnectionConfig where
  database : Text := []
  host : Text := []
  username : Text := []
  password : Text := []
  unixSocket : Text := []
  port : UInt32 := 0
  useRawConnectionString : Bool := false
  rawConnectionStringValue : Text := []
  optionTable : List (Text × Text) := []
  hasSSLMode : Bool := false
  sslMode : SSLMode := .preferred
  sslSettings : SSLSettings := {}
  connectTimeout : UInt32 := 10
deriving DecidableEq, Repr

/-- `std::isalnum`, in the C locale. -/
def isalnum (ch : Char) : Bool := ch.isAlphanum

namespace ConnectionConfig

def quoteConninfoValue (value : Text) : Text :=
  '\'' :: value.flatMap (fun ch => if ch = '\\' ∨ ch = '\'' then ['\\', ch] else [ch]) ++ ['\'']

def isSafeOptionKey (key : Text) : Bool :=
  !key.isEmpty && key.all fun ch => isalnum ch || ch == '_'

def positional (host username password database : Text) (port : UInt32) (unixSocket : Text) :
    Except PGException ConnectionConfig :=
  if containsNul host || containsNul username || containsNul password || containsNul database ||
      containsNul unixSocket then
    .error (pgException "pg: connection parameters cannot contain embedded NUL bytes".toList)
  else .ok { host, username, password, database, port, unixSocket }

def rawConnectionString (connectionString : Text) : Except PGException ConnectionConfig :=
  if containsNul connectionString then
    .error (pgException "pg: connection string cannot contain embedded NUL bytes".toList)
  else .ok { useRawConnectionString := true, rawConnectionStringValue := connectionString }

/-- The loop of `options` over the table. -/
def checkOptions : List (Text × Text) → Except PGException Unit
  | [] => .ok ()
  | option :: rest =>
      if !isSafeOptionKey option.1 then
        .error (pgException "pg: invalid libpq option key in connection option table".toList)
      else if containsNul option.2 then
        .error (pgException "pg: libpq option values cannot contain embedded NUL bytes".toList)
      else checkOptions rest

def options (table : List (Text × Text)) : Except PGException ConnectionConfig :=
  match checkOptions table with
  | .error error => .error error
  | .ok _ => .ok { optionTable := table }

/-- `ensureCanApplyDerivedOption`, in front of the change that a setter makes. -/
def ensureCanApplyDerivedOption (optionName : Text) (config : ConnectionConfig) :
    Except PGException Unit :=
  if config.useRawConnectionString then
    .error (pgException ("pg: ".toList ++ optionName ++
      "() cannot modify a raw connection string; put the option in the connection string".toList))
  else .ok ()

def setConnectTimeout (timeout : UInt32) (config : ConnectionConfig) :
    Except PGException ConnectionConfig :=
  match config.ensureCanApplyDerivedOption "setConnectTimeout".toList with
  | .error error => .error error
  | .ok _ => .ok { config with connectTimeout := timeout }

def setSSLMode (mode : SSLMode) (config : ConnectionConfig) :
    Except PGException ConnectionConfig :=
  match config.ensureCanApplyDerivedOption "setSSLMode".toList with
  | .error error => .error error
  | .ok _ => .ok { config with hasSSLMode := true, sslMode := mode }

def setSSLSettings (settings : SSLSettings) (config : ConnectionConfig) :
    Except PGException ConnectionConfig :=
  match config.ensureCanApplyDerivedOption "setSSLSettings".toList with
  | .error error => .error error
  | .ok _ =>
      if !settings.capath.isEmpty || !settings.cipher.isEmpty then
        .error (pgException
          "pg: capath and cipher SSL settings do not have exact libpq equivalents".toList)
      else if containsNul settings.key || containsNul settings.cert || containsNul settings.ca then
        .error (pgException "pg: SSL settings cannot contain embedded NUL bytes".toList)
      else .ok { config with sslSettings := settings }

/-- An `unsigned int`, as it is written to a stream. -/
def decimal (n : UInt32) : Text := Nat.toDigits 10 n.toNat

/-- The lambda `add` of `buildConnectionString`. -/
def add (key value : Text) : Text :=
  if !value.isEmpty then key ++ '=' :: quoteConninfoValue value ++ [' '] else []

def buildConnectionString (config : ConnectionConfig) : Text :=
  if config.useRawConnectionString then config.rawConnectionStringValue
  else
    add "host".toList (if config.unixSocket.isEmpty then config.host else config.unixSocket) ++
    add "user".toList config.username ++
    add "password".toList config.password ++
    add "dbname".toList config.database ++
    (if config.port ≠ 0 then "port=".toList ++ decimal config.port ++ " ".toList else []) ++
    config.optionTable.flatMap (fun option => add option.1 option.2) ++
    (if 0 < config.connectTimeout then
      "connect_timeout=".toList ++ decimal config.connectTimeout ++ " ".toList else []) ++
    (if config.hasSSLMode then
      match config.sslMode with
      | .disabled => "sslmode=disable ".toList
      | .preferred => "sslmode=prefer ".toList
      | .required => "sslmode=require ".toList
      | .verifyCa => "sslmode=verify-ca ".toList
      | .verifyIdentity => "sslmode=verify-full ".toList
    else []) ++
    add "sslkey".toList config.sslSettings.key ++
    add "sslcert".toList config.sslSettings.cert ++
    add "sslrootcert".toList config.sslSettings.ca

end ConnectionConfig

/-- How a configuration is made, other than from a raw connection string. -/
inductive Source
  | positional (host username password database : Text) (port : UInt32) (unixSocket : Text)
  | options (table : List (Text × Text))
deriving DecidableEq, Repr

def Source.create : Source → Except PGException ConnectionConfig
  | positional host username password database port unixSocket =>
      ConnectionConfig.positional host username password database port unixSocket
  | options table => ConnectionConfig.options table

/-- A call of a setter. -/
inductive Setter
  | setConnectTimeout (timeout : UInt32)
  | setSSLMode (mode : SSLMode)
  | setSSLSettings (settings : SSLSettings)
deriving DecidableEq, Repr

def Setter.apply (config : ConnectionConfig) : Setter → Except PGException ConnectionConfig
  | setConnectTimeout timeout => config.setConnectTimeout timeout
  | setSSLMode mode => config.setSSLMode mode
  | setSSLSettings settings => config.setSSLSettings settings

/-- The setters are called one after the other; all calls succeed, or there is no
configuration. -/
def applySetters : ConnectionConfig → List Setter → Except PGException ConnectionConfig
  | config, [] => .ok config
  | config, setter :: rest =>
      match setter.apply config with
      | .error error => .error error
      | .ok config' => applySetters config' rest

def configure (source : Source) (setters : List Setter) : Except PGException ConnectionConfig :=
  match source.create with
  | .error error => .error error
  | .ok config => applySetters config setters

namespace ConnectionConfig

/-! ### The settings of a configuration -/

/-- The value of `sslmode`. -/
def sslModeName : SSLMode → Text
  | .disabled => "disable".toList
  | .preferred => "prefer".toList
  | .required => "require".toList
  | .verifyCa => "verify-ca".toList
  | .verifyIdentity => "verify-full".toList

/-- All keywords with their values, in the order in which they are written; an empty value
stands for a setting that is not there. -/
def fields (config : ConnectionConfig) : List Setting :=
  [("host".toList, if config.unixSocket.isEmpty then config.host else config.unixSocket)] ++
  [("user".toList, config.username)] ++
  [("password".toList, config.password)] ++
  [("dbname".toList, config.database)] ++
  [("port".toList, if config.port = 0 then [] else decimal config.port)] ++
  config.optionTable ++
  [("connect_timeout".toList,
    if config.connectTimeout = 0 then [] else decimal config.connectTimeout)] ++
  [("sslmode".toList, if config.hasSSLMode then sslModeName config.sslMode else [])] ++
  [("sslkey".toList, config.sslSettings.key)] ++
  [("sslcert".toList, config.sslSettings.cert)] ++
  [("sslrootcert".toList, config.sslSettings.ca)]

/-- The setting is there. -/
def isGiven (setting : Setting) : Bool := !setting.2.isEmpty

/-- The settings of a configuration. -/
def settings (config : ConnectionConfig) : List Setting := config.fields.filter isGiven

end ConnectionConfig

end GmsvPg
