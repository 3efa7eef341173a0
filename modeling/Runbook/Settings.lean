import Runbook.Email
import Runbook.Field

/-!
# Settings

* `Settings`: everything that can be configured, with the values that hold where nothing is given.
* `Settings.read`: settings from named values; a name that is none of the settings is refused.
* `Settings.ofEnvironment`: settings from environment variables; other variables do not matter.
-/

namespace Runbook

/-- Everything that can be configured. -/
structure Settings where
  appName : String := "Operations Workflow Engine"
  appVersion : String := "1.0.0"
  debug : Bool := false
  environment : String := "development"
  databaseUrl : String := "sqlite+aiosqlite:///./workflows.db"
  databaseEcho : Bool := false
  poolSize : Int := 20
  maxOverflow : Int := 10
  redisUrl : String := "redis://localhost:6379/0"
  smtpHost : String := "smtp.gmail.com"
  smtpPort : Int := 587
  smtpSecure : Bool := false
  smtpUser : String := ""
  smtpPassword : String := ""
  smtpFrom : String := standardSender
  loopLimit : Int := 100
  timeout : Option Binary64 := none
  webhookTimeout : Binary64 := 30
  blockPrivateNetworks : Bool := true
  logLevel : String := "INFO"
  logFormat : String := "json"

namespace Settings

/-- The names of the settings, in their order. -/
def names : List String := [
  "APP_NAME", "APP_VERSION", "DEBUG", "ENVIRONMENT", "DATABASE_URL", "SQLALCHEMY_ECHO", "DB_POOL_SIZE",
  "DB_MAX_OVERFLOW", "REDIS_URL", "SMTP_HOST", "SMTP_PORT", "SMTP_SECURE", "SMTP_USER", "SMTP_PASSWORD",
  "SMTP_FROM", "WORKFLOW_LOOP_MAX_ITERATIONS", "WORKFLOW_TIMEOUT_SECONDS", "WEBHOOK_TIMEOUT_SECONDS",
  "WEBHOOK_BLOCK_PRIVATE_NETWORKS", "LOG_LEVEL", "LOG_FORMAT"]

/-- The values of the settings, in the order of their names. -/
def values (s : Settings) : List Value := [
  .str s.appName, .str s.appVersion, .bool s.debug, .str s.environment, .str s.databaseUrl,
  .bool s.databaseEcho, .int s.poolSize, .int s.maxOverflow, .str s.redisUrl, .str s.smtpHost,
  .int s.smtpPort, .bool s.smtpSecure, .str s.smtpUser, .str s.smtpPassword, .str s.smtpFrom,
  .int s.loopLimit, (match s.timeout with | some t => .float t | none => .null), .float s.webhookTimeout,
  .bool s.blockPrivateNetworks, .str s.logLevel, .str s.logFormat]

/-- The settings as named values. -/
def fields (s : Settings) : Fields := names.zip s.values

/-- Settings from the named values that are given. -/
def readKnown (es : Entries) : Checked Settings :=
  let given {α : Type} (name : String) (default : α) (read : Value → Checked α) : Checked α :=
    Field.optional es [name] default read
  let standard : Settings := {}
  Settings.mk <$> given "APP_NAME" standard.appName Field.text
    <*> given "APP_VERSION" standard.appVersion Field.text
    <*> given "DEBUG" standard.debug Field.truth
    <*> given "ENVIRONMENT" standard.environment Field.text
    <*> given "DATABASE_URL" standard.databaseUrl Field.text
    <*> given "SQLALCHEMY_ECHO" standard.databaseEcho Field.truth
    <*> given "DB_POOL_SIZE" standard.poolSize Field.integer
    <*> given "DB_MAX_OVERFLOW" standard.maxOverflow Field.integer
    <*> given "REDIS_URL" standard.redisUrl Field.text
    <*> given "SMTP_HOST" standard.smtpHost Field.text
    <*> given "SMTP_PORT" standard.smtpPort Field.integer
    <*> given "SMTP_SECURE" standard.smtpSecure Field.truth
    <*> given "SMTP_USER" standard.smtpUser Field.text
    <*> given "SMTP_PASSWORD" standard.smtpPassword Field.text
    <*> given "SMTP_FROM" standard.smtpFrom Field.text
    <*> given "WORKFLOW_LOOP_MAX_ITERATIONS" standard.loopLimit Field.integer
    <*> given "WORKFLOW_TIMEOUT_SECONDS" standard.timeout Field.numberOrNull
    <*> given "WEBHOOK_TIMEOUT_SECONDS" standard.webhookTimeout Field.number
    <*> given "WEBHOOK_BLOCK_PRIVATE_NETWORKS" standard.blockPrivateNetworks Field.truth
    <*> given "LOG_LEVEL" standard.logLevel Field.text
    <*> given "LOG_FORMAT" standard.logFormat Field.text

/-- Refuses the names that are none of the settings. -/
def checkNames (es : Entries) : Checked Unit :=
  let unknown := es.filter fun (k, _) => !names.any k.isStr
  (fun _ => ()) <$> Checked.all (unknown.map fun (k, _) => (Checked.fail .unexpected : Checked Unit).under k.text)

/-- Settings from named values. -/
def read (es : Entries) : Checked Settings := (fun s _ => s) <$> readKnown es <*> checkNames es

/-- Settings from environment variables. -/
def ofEnvironment (environment : List (String × String)) : Checked Settings :=
  readKnown (environment.map fun (name, value) => (.str name, .str value))

/-- Whether the program runs at a developer's desk. -/
def isDevelopment (s : Settings) : Bool := s.environment == "development"

/-- Whether the program runs for its users. -/
def isProduction (s : Settings) : Bool := s.environment == "production"

end Settings

/-- How the mail server is reached. Without a user and a password there is no login. -/
structure MailServer where
  host : String
  port : Int
  secure : Bool
  user : String := ""
  password : String := ""
  deriving DecidableEq, Repr

/-- How the mail server is reached under these settings. -/
def Settings.mailServer (s : Settings) : MailServer :=
  ⟨s.smtpHost, s.smtpPort, s.smtpSecure, s.smtpUser, s.smtpPassword⟩

/-- How connections to a database server are pooled. -/
structure Pool where
  size : Int
  maxOverflow : Int
  deriving DecidableEq, Repr

/-- How the database is opened. -/
structure DatabaseOptions where
  url : String
  echo : Bool
  pool : Option Pool
  deriving DecidableEq, Repr

/-- How the database is opened under these settings: a database in a file needs no pool. -/
def Settings.database (s : Settings) : DatabaseOptions :=
  let inFile := s.databaseUrl.startsWith "sqlite"
  ⟨s.databaseUrl, s.databaseEcho, if inFile then none else some ⟨s.poolSize, s.maxOverflow⟩⟩

end Runbook
