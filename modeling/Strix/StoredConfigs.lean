import Mathlib.Data.Finmap
import Strix.IamStore
import Strix.MachineRuns
import Strix.RowTable
import Strix.SplitWords

/-!
# The stored configurations of the mail relay and the identity providers

The relay has one row at most, a provider one row under its id.  Secrets are stored
encrypted, lists and maps as texts.  A call that names an empty secret keeps the one that
is stored.

* `getOidcProvider_login`: a login reads of a provider what is stored of it.
-/

namespace Strix

open MachineRuns RowTable SplitWords

/-- The policies of groups: a map. -/
abbrev GroupMappings := Finmap fun _ : String => String

/-- What the stored configurations use of other code: the encryption under the key of the
server, and the JSON texts of lists and maps.  A `Draw` is what a call draws at random: a
nonce, and the order in which a map is walked. -/
structure ConfigPlatform where
  Draw : Type
  encryptSecret : Draw → String → Except IamError String
  decryptSecret : String → Except IamError String
  recipientsText : List String → String
  parseRecipients : String → Option (List String)
  mappingsText : Draw → GroupMappings → String
  parseMappings : String → Option GroupMappings

/-- What the calls rely on: a secret is decrypted to what was encrypted, and a ciphertext is
never empty, as it begins with its nonce. -/
structure ConfigPlatform.OpensSecrets (platform : ConfigPlatform) : Prop where
  decrypt_encrypt : ∀ {draw secret encrypted},
    platform.encryptSecret draw secret = .ok encrypted →
      platform.decryptSecret encrypted = .ok secret
  encrypt_nonempty : ∀ {draw secret encrypted},
    platform.encryptSecret draw secret = .ok encrypted → encrypted.isEmpty = false

/-- A stored secret, decrypted unless it is empty. -/
def ConfigPlatform.openSecret (platform : ConfigPlatform) (encrypted : String) :
    Except IamError String :=
  if encrypted.isEmpty then .ok "" else platform.decryptSecret encrypted

/-- A flag in a column. -/
def flagColumn (flag : Bool) : Int := if flag then 1 else 0

/-- A flag is read back. -/
@[simp] theorem flagColumn_bne_zero (flag : Bool) : (flagColumn flag != 0) = flag := by
  cases flag <;> rfl

/-! ## The mail relay -/

/-- How often usage reports are sent. -/
inductive UsageReportSchedule
  | daily
  | weekly
  deriving DecidableEq, Repr

namespace UsageReportSchedule

def asStr : UsageReportSchedule → String
  | daily => "daily"
  | weekly => "weekly"

/-- `from_str`: an ASCII text without regard to case. -/
def fromStr (text : String) : Option UsageReportSchedule :=
  let lower := text.map Char.toLower
  if lower = "daily" then some daily
  else if lower = "weekly" then some weekly
  else none

/-- A schedule is read back from its text. -/
@[simp] theorem fromStr_asStr (schedule : UsageReportSchedule) :
    fromStr schedule.asStr = some schedule := by
  cases schedule <;> decide +kernel

end UsageReportSchedule

/-- SMTP relay configuration. -/
structure SmtpConfig where
  enabled : Bool := false
  host : String := ""
  port : UInt16 := 587
  username : String := ""
  password : String := ""
  fromAddress : String := ""
  fromName : Option String := some "Strix"
  useStarttls : Bool := true
  alertOnDeliveryFailure : Bool := false
  sendUsageReports : Bool := false
  usageReportSchedule : UsageReportSchedule := .weekly
  alertOnAuditEvents : Bool := false
  alertRecipients : List String := []
  deriving DecidableEq, Repr

/-- The row of `smtp_config`. -/
structure SmtpRow where
  enabled : Int
  host : String
  port : Int
  username : String
  passwordEnc : String
  fromAddress : String
  fromName : Option String
  useStarttls : Int
  alertOnDeliveryFailure : Int
  sendUsageReports : Int
  usageReportSchedule : String
  alertOnAuditEvents : Int
  alertRecipients : String
  deriving DecidableEq, Repr

/-- Raw SMTP config row (password still encrypted). -/
structure SmtpConfigRaw where
  enabled : Bool
  host : String
  port : UInt16
  username : String
  passwordEnc : String
  fromAddress : String
  fromName : Option String
  useStarttls : Bool
  alertOnDeliveryFailure : Bool
  sendUsageReports : Bool
  usageReportSchedule : String
  alertOnAuditEvents : Bool
  alertRecipients : String
  deriving DecidableEq, Repr

/-- `smtp_row_to_raw`. -/
def smtpRowToRaw (row : SmtpRow) : SmtpConfigRaw where
  enabled := row.enabled != 0
  host := row.host
  port := UInt16.ofInt row.port
  username := row.username
  passwordEnc := row.passwordEnc
  fromAddress := row.fromAddress
  fromName := row.fromName
  useStarttls := row.useStarttls != 0
  alertOnDeliveryFailure := row.alertOnDeliveryFailure != 0
  sendUsageReports := row.sendUsageReports != 0
  usageReportSchedule := row.usageReportSchedule
  alertOnAuditEvents := row.alertOnAuditEvents != 0
  alertRecipients := row.alertRecipients

/-- The configuration without its password. -/
def SmtpConfigRaw.intoConfigWithoutSecret (platform : ConfigPlatform) (raw : SmtpConfigRaw) :
    SmtpConfig where
  enabled := raw.enabled
  host := raw.host
  port := raw.port
  username := raw.username
  password := ""
  fromAddress := raw.fromAddress
  fromName := raw.fromName
  useStarttls := raw.useStarttls
  alertOnDeliveryFailure := raw.alertOnDeliveryFailure
  sendUsageReports := raw.sendUsageReports
  usageReportSchedule := (UsageReportSchedule.fromStr raw.usageReportSchedule).getD .weekly
  alertOnAuditEvents := raw.alertOnAuditEvents
  alertRecipients := (platform.parseRecipients raw.alertRecipients).getD []

/-! ## The identity providers -/

/-- OIDC provider configuration, with all its fields. -/
structure OidcProviderConfig where
  id : String
  name : String
  enabled : Bool := true
  issuerUrl : String
  clientId : String
  clientSecret : String
  redirectUri : String
  scopes : List String := ["openid", "email", "profile"]
  usernameClaim : String := "preferred_username"
  groupsClaim : Option String := none
  autoCreateUsers : Bool := true
  defaultPolicy : Option String := none
  groupPolicyMappings : GroupMappings := ∅
  deriving DecidableEq

/-- A row of `oidc_providers`, with all its columns but the times. -/
structure OidcColumns where
  id : String
  name : String
  enabled : Int
  issuerUrl : String
  clientId : String
  clientSecretEnc : String
  redirectUri : String
  scopes : String
  usernameClaim : String
  groupsClaim : Option String
  autoCreateUsers : Int
  defaultPolicy : Option String
  groupPolicyMappings : String
  deriving DecidableEq, Repr

/-- Raw OIDC provider row (client secret still encrypted). -/
structure OidcProviderRaw where
  id : String
  name : String
  enabled : Bool
  issuerUrl : String
  clientId : String
  clientSecretEnc : String
  redirectUri : String
  scopes : String
  usernameClaim : String
  groupsClaim : Option String
  autoCreateUsers : Bool
  defaultPolicy : Option String
  groupPolicyMappings : String
  deriving DecidableEq, Repr

/-- `oidc_row_to_raw`. -/
def oidcRowToRaw (row : OidcColumns) : OidcProviderRaw where
  id := row.id
  name := row.name
  enabled := row.enabled != 0
  issuerUrl := row.issuerUrl
  clientId := row.clientId
  clientSecretEnc := row.clientSecretEnc
  redirectUri := row.redirectUri
  scopes := row.scopes
  usernameClaim := row.usernameClaim
  groupsClaim := row.groupsClaim
  autoCreateUsers := row.autoCreateUsers != 0
  defaultPolicy := row.defaultPolicy
  groupPolicyMappings := row.groupPolicyMappings

/-- The values of an `INSERT INTO oidc_providers`. -/
def OidcProviderRaw.columns (raw : OidcProviderRaw) : OidcColumns where
  id := raw.id
  name := raw.name
  enabled := flagColumn raw.enabled
  issuerUrl := raw.issuerUrl
  clientId := raw.clientId
  clientSecretEnc := raw.clientSecretEnc
  redirectUri := raw.redirectUri
  scopes := raw.scopes
  usernameClaim := raw.usernameClaim
  groupsClaim := raw.groupsClaim
  autoCreateUsers := flagColumn raw.autoCreateUsers
  defaultPolicy := raw.defaultPolicy
  groupPolicyMappings := raw.groupPolicyMappings

/-- The assignments of the `UPDATE oidc_providers` that leaves the secret. -/
def OidcProviderRaw.assign (raw : OidcProviderRaw) (row : OidcColumns) : OidcColumns :=
  { row with
    name := raw.name
    enabled := flagColumn raw.enabled
    issuerUrl := raw.issuerUrl
    clientId := raw.clientId
    redirectUri := raw.redirectUri
    scopes := raw.scopes
    usernameClaim := raw.usernameClaim
    groupsClaim := raw.groupsClaim
    autoCreateUsers := flagColumn raw.autoCreateUsers
    defaultPolicy := raw.defaultPolicy
    groupPolicyMappings := raw.groupPolicyMappings }

/-- The assignments of the `UPDATE oidc_providers` that rewrites the secret. -/
def OidcProviderRaw.assignWithSecret (raw : OidcProviderRaw) (row : OidcColumns) : OidcColumns :=
  { raw.assign row with clientSecretEnc := raw.clientSecretEnc }

/-- Convert a decrypted configuration into a storable row (secret encrypted). -/
def oidcConfigToRaw (platform : ConfigPlatform) (draw : platform.Draw)
    (config : OidcProviderConfig) : Except IamError OidcProviderRaw := do
  let clientSecretEnc ←
    if config.clientSecret.isEmpty then .ok ""
    else platform.encryptSecret draw config.clientSecret
  .ok
    { id := config.id
      name := config.name
      enabled := config.enabled
      issuerUrl := config.issuerUrl
      clientId := config.clientId
      clientSecretEnc := clientSecretEnc
      redirectUri := config.redirectUri
      scopes := " ".intercalate config.scopes
      usernameClaim := config.usernameClaim
      groupsClaim := config.groupsClaim
      autoCreateUsers := config.autoCreateUsers
      defaultPolicy := config.defaultPolicy
      groupPolicyMappings := platform.mappingsText draw config.groupPolicyMappings }

/-- Convert a stored row into a configuration, decrypting the client secret. -/
def rawToOidcConfig (platform : ConfigPlatform) (raw : OidcProviderRaw) :
    Except IamError OidcProviderConfig := do
  let clientSecret ← platform.openSecret raw.clientSecretEnc
  .ok
    { id := raw.id
      name := raw.name
      enabled := raw.enabled
      issuerUrl := raw.issuerUrl
      clientId := raw.clientId
      clientSecret := clientSecret
      redirectUri := raw.redirectUri
      scopes := splitWhitespace raw.scopes
      usernameClaim := raw.usernameClaim
      groupsClaim := raw.groupsClaim
      autoCreateUsers := raw.autoCreateUsers
      defaultPolicy := raw.defaultPolicy
      groupPolicyMappings := (platform.parseMappings raw.groupPolicyMappings).getD ∅ }

/-! ## The calls -/

/-- The tables of the configurations. -/
structure ConfigDb where
  smtpConfig : Option SmtpRow := none
  oidcProviders : List OidcColumns := []
  deriving DecidableEq, Repr

section Calls

variable (platform : ConfigPlatform)

/-- The configuration of the relay, with its password decrypted. -/
def getSmtpConfigWithSecret (db : ConfigDb) : Except IamError (Option SmtpConfig) :=
  match db.smtpConfig with
  | none => .ok none
  | some row => do
    let raw := smtpRowToRaw row
    let password ← platform.openSecret raw.passwordEnc
    .ok (some { raw.intoConfigWithoutSecret platform with password := password })

/-- The row that a configuration of the relay is stored as. -/
def smtpColumns (config : SmtpConfig) (storedPassword : String) : SmtpRow where
  enabled := flagColumn config.enabled
  host := config.host
  port := config.port.toNat
  username := config.username
  passwordEnc := storedPassword
  fromAddress := config.fromAddress
  fromName := config.fromName
  useStarttls := flagColumn config.useStarttls
  alertOnDeliveryFailure := flagColumn config.alertOnDeliveryFailure
  sendUsageReports := flagColumn config.sendUsageReports
  usageReportSchedule := config.usageReportSchedule.asStr
  alertOnAuditEvents := flagColumn config.alertOnAuditEvents
  alertRecipients := platform.recipientsText config.alertRecipients

/-- Insert or replace the configuration of the relay: an empty password keeps the stored
one. -/
def setSmtpConfig (draw : platform.Draw) (config : SmtpConfig) (db : ConfigDb) :
    Except IamError Unit × ConfigDb :=
  let passwordEnc : Except IamError (Option String) :=
    if config.password.isEmpty then .ok none
    else (platform.encryptSecret draw config.password).map some
  match passwordEnc with
  | .error e => (.error e, db)
  | .ok passwordEnc =>
    let storedPassword := match passwordEnc with
      | some enc => enc
      | none => (db.smtpConfig.map (·.passwordEnc)).getD ""
    (.ok (), { db with smtpConfig := some (smtpColumns platform config storedPassword) })

/-- A provider by its id, with its secret decrypted. -/
def getOidcProviderConfig (id : String) (db : ConfigDb) :
    Except IamError (Option OidcProviderConfig) :=
  match selectFirst (·.id == id) db.oidcProviders with
  | none => .ok none
  | some row => do
    let config ← rawToOidcConfig platform (oidcRowToRaw row)
    .ok (some config)

def createOidcProvider (draw : platform.Draw) (config : OidcProviderConfig) (db : ConfigDb) :
    Except IamError Unit × ConfigDb :=
  match oidcConfigToRaw platform draw config with
  | .error e => (.error e, db)
  | .ok raw =>
    if db.oidcProviders.any (·.id == raw.id) then
      (.error (.oidc ("provider '" ++ config.id ++ "' already exists")), db)
    else (.ok (), { db with oidcProviders := insertRow raw.columns db.oidcProviders })

/-- Update a provider: the client secret is only rewritten when it is non-empty. -/
def updateOidcProvider (draw : platform.Draw) (config : OidcProviderConfig) (db : ConfigDb) :
    Except IamError Unit × ConfigDb :=
  match oidcConfigToRaw platform draw config with
  | .error e => (.error e, db)
  | .ok raw =>
    let rewriteSecret := !config.clientSecret.isEmpty
    let assign := if rewriteSecret then raw.assignWithSecret else raw.assign
    let rows := (db.oidcProviders.filter (·.id == raw.id)).length
    let updated := { db with
      oidcProviders := updateRows (·.id == raw.id) assign db.oidcProviders }
    if rows = 0 then (.error (.oidc ("provider '" ++ config.id ++ "' not found")), updated)
    else (.ok (), updated)

def deleteOidcProvider (id : String) (db : ConfigDb) : Except IamError Unit × ConfigDb :=
  let rows := (db.oidcProviders.filter (·.id == id)).length
  let deleted := { db with oidcProviders := deleteRows (·.id == id) db.oidcProviders }
  if rows = 0 then (.error (.oidc ("provider '" ++ id ++ "' not found")), deleted)
  else (.ok (), deleted)

end Calls

/-! ## What a login reads -/

/-- What a login reads of a provider. -/
def OidcProviderConfig.login (config : OidcProviderConfig) : OidcConfig where
  id := config.id
  enabled := config.enabled
  issuerUrl := config.issuerUrl
  clientId := config.clientId
  clientSecret := config.clientSecret
  redirectUri := config.redirectUri
  scopes := config.scopes
  usernameClaim := config.usernameClaim
  autoCreateUsers := config.autoCreateUsers
  defaultPolicy := config.defaultPolicy

/-- The columns that a login reads. -/
def OidcColumns.login (row : OidcColumns) : OidcProviderRow where
  id := row.id
  enabled := row.enabled != 0
  issuerUrl := row.issuerUrl
  clientId := row.clientId
  clientSecretEnc := row.clientSecretEnc
  redirectUri := row.redirectUri
  scopes := splitWhitespace row.scopes
  usernameClaim := row.usernameClaim
  autoCreateUsers := row.autoCreateUsers != 0
  defaultPolicy := row.defaultPolicy

/-- **A login reads of a provider** what is stored of it. -/
theorem getOidcProvider_login {platform : ConfigPlatform} {iam : IamStore} {logins : IamPlatform}
    {db : ConfigDb} (hrows : iam.db.oidcProviders = db.oidcProviders.map OidcColumns.login)
    (hsecrets : logins.decryptSecret = platform.decryptSecret) (id : String) :
    iam.getOidcProvider logins id =
      (getOidcProviderConfig platform id db).map fun found => found.map OidcProviderConfig.login := by
  unfold IamStore.getOidcProvider getOidcProviderConfig selectFirst
  rw [hrows, List.find?_map]
  have hsame : ((fun row : OidcProviderRow => row.id == id) ∘ OidcColumns.login) =
      fun row => row.id == id := rfl
  rw [hsame]
  cases db.oidcProviders.find? fun row => row.id == id with
  | none => rfl
  | some row =>
      simp only [Option.map_some, hsecrets, rawToOidcConfig, ConfigPlatform.openSecret]
      by_cases hempty : row.clientSecretEnc.isEmpty = true
      · have hlogin : row.login.clientSecretEnc.isEmpty = true := hempty
        have hraw : (oidcRowToRaw row).clientSecretEnc.isEmpty = true := hempty
        rw [if_pos hlogin, if_pos hraw]
        rfl
      · have hlogin : ¬row.login.clientSecretEnc.isEmpty = true := hempty
        have hraw : ¬(oidcRowToRaw row).clientSecretEnc.isEmpty = true := hempty
        have hsame : row.login.clientSecretEnc = (oidcRowToRaw row).clientSecretEnc := rfl
        rw [if_neg hlogin, if_neg hraw, hsame]
        cases platform.decryptSecret (oidcRowToRaw row).clientSecretEnc with
        | error e => rfl
        | ok secret => rfl

end Strix
