import Strix.StoredConfigs

/-!
# Write-only secrets are sticky

A call that names an empty secret keeps the stored one, and replaces all other fields.  So
what is read back is the last configuration with the last nonempty secret, with one
exception: the scopes of a provider are joined by spaces and split at white space.

* `setSmtpConfig_kept`, `createOidcProvider_kept`, `updateOidcProvider_kept`,
  `deleteOidcProvider_kept`: what one call keeps between a row and the calls before;
* `configsKept_after`: every run keeps it;
* `getSmtpConfigWithSecret_of_kept`, `getOidcProviderConfig_of_kept`: what is read back;
* `secrets_sticky_iff`: secrets are sticky and all other fields are those of the last call
  exactly if the scopes of that call are words.
-/

namespace Strix

open MachineRuns RowTable SplitWords

/-- The last secret that is not empty, or the empty one. -/
def lastNonEmpty (secrets : List String) : String :=
  ((secrets.filter fun secret => !secret.isEmpty).getLast?).getD ""

@[simp] theorem lastNonEmpty_concat (secrets : List String) (secret : String) :
    lastNonEmpty (secrets ++ [secret]) =
      if secret.isEmpty then lastNonEmpty secrets else secret := by
  unfold lastNonEmpty
  by_cases hempty : secret.isEmpty = true
  · simp [List.filter_append, hempty]
  · simp [List.filter_append, hempty]

@[simp] theorem lastNonEmpty_singleton (secret : String) : lastNonEmpty [secret] = secret := by
  have hsnoc := lastNonEmpty_concat [] secret
  by_cases hempty : secret.isEmpty = true
  · rw [if_pos hempty] at hsnoc
    rw [String.isEmpty_iff.mp hempty]
    rfl
  · rw [if_neg hempty] at hsnoc
    exact hsnoc

/-! ## Runs -/

/-- A call on the stored configurations. -/
inductive ConfigCall
  | setSmtpConfig (config : SmtpConfig)
  | createOidcProvider (config : OidcProviderConfig)
  | updateOidcProvider (config : OidcProviderConfig)
  | deleteOidcProvider (id : String)

/-- The calls, each with what it draws. -/
def configMachine (platform : ConfigPlatform) :
    Machine ConfigDb (platform.Draw × ConfigCall) (Except IamError Unit) where
  init := {}
  step db op :=
    match op.2 with
    | .setSmtpConfig config => setSmtpConfig platform op.1 config db
    | .createOidcProvider config => createOidcProvider platform op.1 config db
    | .updateOidcProvider config => updateOidcProvider platform op.1 config db
    | .deleteOidcProvider id => deleteOidcProvider id db

/-- The configurations that successful calls supplied: those of the relay, and those of one
provider since it was created. -/
structure ConfigHistory where
  smtp : List SmtpConfig := []
  provider : List OidcProviderConfig := []

/-- A failed call is not noted. -/
def ConfigHistory.note {Draw : Type} (id : String) (history : ConfigHistory) (_ : ConfigDb)
    (op : Draw × ConfigCall) : Except IamError Unit → ConfigHistory
  | .error _ => history
  | .ok () =>
    match op.2 with
    | .setSmtpConfig config => { history with smtp := history.smtp ++ [config] }
    | .createOidcProvider config =>
      { history with provider := if config.id = id then [config] else history.provider }
    | .updateOidcProvider config =>
      { history with
        provider := if config.id = id then history.provider ++ [config] else history.provider }
    | .deleteOidcProvider deleted =>
      { history with provider := if deleted = id then [] else history.provider }

/-- The tables after the calls, and what they supplied for the relay and one provider. -/
def configsAfter (platform : ConfigPlatform) (id : String)
    (calls : List (platform.Draw × ConfigCall)) : ConfigDb × ConfigHistory :=
  ((configMachine platform).observed (ConfigHistory.note id) {}).after ({}, {}) calls

/-- What is to be remembered of the relay: the last configuration, with the last nonempty
password. -/
def rememberedSmtp (history : List SmtpConfig) : Option SmtpConfig :=
  history.getLast?.map fun last =>
    { last with password := lastNonEmpty (history.map (·.password)) }

/-- What is to be remembered of a provider: the last configuration, with the last nonempty
secret. -/
def rememberedProvider (history : List OidcProviderConfig) : Option OidcProviderConfig :=
  history.getLast?.map fun last =>
    { last with clientSecret := lastNonEmpty (history.map (·.clientSecret)) }

section Secrets

variable {platform : ConfigPlatform}

/-- What was encrypted is opened. -/
theorem openSecret_of_encrypt (hopens : platform.OpensSecrets) {draw : platform.Draw}
    {secret encrypted : String} (h : platform.encryptSecret draw secret = .ok encrypted) :
    platform.openSecret encrypted = .ok secret := by
  unfold ConfigPlatform.openSecret
  rw [if_neg (by simp [hopens.encrypt_nonempty h])]
  exact hopens.decrypt_encrypt h

/-- No secret is stored as the empty text. -/
@[simp] theorem openSecret_empty : platform.openSecret "" = .ok "" := rfl

end Secrets

/-! ## The relay -/

/-- The recipients are read back from their text. -/
def SmtpConfig.ReadsBack (platform : ConfigPlatform) (config : SmtpConfig) : Prop :=
  platform.parseRecipients (platform.recipientsText config.alertRecipients) =
    some config.alertRecipients

section Smtp

variable {platform : ConfigPlatform} {draw : platform.Draw} {config : SmtpConfig}
  {db db' : ConfigDb} {history : List SmtpConfig}

/-- The row of the relay is that of the last configuration, but for the secret: that one is
opened to the last nonempty one. -/
def SmtpKept (platform : ConfigPlatform) (stored : Option SmtpRow) (history : List SmtpConfig) :
    Prop :=
  match history.getLast? with
  | none => stored = none
  | some last => last.ReadsBack platform ∧
      ∃ encrypted, stored = some (smtpColumns platform last encrypted) ∧
      platform.openSecret encrypted = .ok (lastNonEmpty (history.map (·.password)))

/-- The stored password is opened to the last nonempty one. -/
theorem SmtpKept.openSecret (h : SmtpKept platform db.smtpConfig history) :
    platform.openSecret ((db.smtpConfig.map (·.passwordEnc)).getD "") =
      .ok (lastNonEmpty (history.map (·.password))) := by
  unfold SmtpKept at h
  cases hlast : history.getLast? with
  | none =>
      rw [hlast] at h
      rw [h, List.getLast?_eq_none_iff.mp hlast]
      rfl
  | some last =>
      rw [hlast] at h
      obtain ⟨-, encrypted, hstored, hopen⟩ := h
      rw [hstored]
      exact hopen

/-- What a call that sets the relay's configuration does: it stores a new password, or
keeps the old one. -/
theorem setSmtpConfig_ok (h : setSmtpConfig platform draw config db = (.ok (), db')) :
    ∃ encrypted,
      db' = { db with smtpConfig := some (smtpColumns platform config encrypted) } ∧
      ((config.password.isEmpty = true ∧
          encrypted = (db.smtpConfig.map (·.passwordEnc)).getD "") ∨
        (config.password.isEmpty = false ∧
          platform.encryptSecret draw config.password = .ok encrypted)) := by
  unfold setSmtpConfig at h
  cases hempty : config.password.isEmpty with
  | true =>
      simp only [hempty, if_true, Prod.mk.injEq, true_and] at h
      exact ⟨_, h.symm, .inl ⟨rfl, rfl⟩⟩
  | false =>
      cases hencrypt : platform.encryptSecret draw config.password with
      | error e => simp [hempty, hencrypt, Except.map] at h
      | ok encrypted =>
          simp only [hempty, hencrypt, Except.map, Bool.false_eq_true, if_false, Prod.mk.injEq,
            true_and] at h
          exact ⟨encrypted, h.symm, .inr ⟨rfl, rfl⟩⟩

/-- A failed call changes nothing. -/
theorem setSmtpConfig_error {e : IamError}
    (h : (setSmtpConfig platform draw config db).1 = .error e) :
    (setSmtpConfig platform draw config db).2 = db := by
  unfold setSmtpConfig at h ⊢
  cases hempty : config.password.isEmpty with
  | true => simp [hempty] at h
  | false =>
      cases hencrypt : platform.encryptSecret draw config.password with
      | error e => simp [Except.map]
      | ok encrypted => simp [hempty, hencrypt, Except.map] at h

/-- **A call on the relay** keeps the row in step with the calls. -/
theorem setSmtpConfig_kept (hopens : platform.OpensSecrets) (hreads : config.ReadsBack platform)
    (hkept : SmtpKept platform db.smtpConfig history)
    (h : setSmtpConfig platform draw config db = (.ok (), db')) :
    SmtpKept platform db'.smtpConfig (history ++ [config]) ∧
      db'.oidcProviders = db.oidcProviders := by
  obtain ⟨encrypted, rfl, hsecret⟩ := setSmtpConfig_ok h
  refine ⟨?_, rfl⟩
  unfold SmtpKept
  rw [List.getLast?_concat]
  refine ⟨hreads, encrypted, rfl, ?_⟩
  rw [List.map_append, List.map_singleton, lastNonEmpty_concat]
  obtain ⟨hempty, rfl⟩ | ⟨hempty, hencrypt⟩ := hsecret
  · rw [if_pos hempty]
    exact hkept.openSecret
  · rw [if_neg (by simp [hempty])]
    exact openSecret_of_encrypt hopens hencrypt

/-- All but the password is read back from the row. -/
theorem intoConfigWithoutSecret_smtpColumns (hreads : config.ReadsBack platform)
    (encrypted : String) :
    (smtpRowToRaw (smtpColumns platform config encrypted)).intoConfigWithoutSecret platform =
      { config with password := "" } := by
  have hport : UInt16.ofInt (config.port.toNat : Int) = config.port := by
    have hlt : config.port.toNat < 2 ^ 16 := config.port.toNat_lt
    have hword : ((config.port.toNat : Int) % 2 ^ 16).toNat = config.port.toNat := by omega
    rw [UInt16.ofInt, hword, UInt16.ofNat_toNat]
  unfold SmtpConfig.ReadsBack at hreads
  simp only [smtpRowToRaw, smtpColumns, SmtpConfigRaw.intoConfigWithoutSecret,
    flagColumn_bne_zero, UsageReportSchedule.fromStr_asStr, hreads, hport,
    Option.getD_some]

/-- **What is read back of the relay** is what is to be remembered. -/
theorem getSmtpConfigWithSecret_of_kept
    (hkept : SmtpKept platform db.smtpConfig history) :
    getSmtpConfigWithSecret platform db = .ok (rememberedSmtp history) := by
  unfold getSmtpConfigWithSecret rememberedSmtp
  unfold SmtpKept at hkept
  cases hlast : history.getLast? with
  | none =>
      rw [hlast] at hkept
      rw [hkept]
      rfl
  | some last =>
      rw [hlast] at hkept
      obtain ⟨hreads, encrypted, hstored, hopen⟩ := hkept
      have hpassword : platform.openSecret
          (smtpRowToRaw (smtpColumns platform last encrypted)).passwordEnc =
          .ok (lastNonEmpty (history.map (·.password))) := hopen
      rw [hstored]
      simp only [hpassword, intoConfigWithoutSecret_smtpColumns hreads, Option.map_some]
      rfl

end Smtp

/-! ## The providers -/

/-- The raw row of a configuration, with a stored secret. -/
def providerRaw (platform : ConfigPlatform) (draw : platform.Draw) (config : OidcProviderConfig)
    (clientSecretEnc : String) : OidcProviderRaw where
  id := config.id
  name := config.name
  enabled := config.enabled
  issuerUrl := config.issuerUrl
  clientId := config.clientId
  clientSecretEnc := clientSecretEnc
  redirectUri := config.redirectUri
  scopes := " ".intercalate config.scopes
  usernameClaim := config.usernameClaim
  groupsClaim := config.groupsClaim
  autoCreateUsers := config.autoCreateUsers
  defaultPolicy := config.defaultPolicy
  groupPolicyMappings := platform.mappingsText draw config.groupPolicyMappings

/-- The mappings are read back from their text. -/
def OidcProviderConfig.ReadsBack (platform : ConfigPlatform) (draw : platform.Draw)
    (config : OidcProviderConfig) : Prop :=
  platform.parseMappings (platform.mappingsText draw config.groupPolicyMappings) =
    some config.groupPolicyMappings

section Providers

variable {platform : ConfigPlatform} {draw : platform.Draw} {config : OidcProviderConfig}
  {id : String} {db db' : ConfigDb} {history : List OidcProviderConfig}

/-- A configuration becomes its raw row: an empty secret stays empty, any other one is
encrypted. -/
theorem oidcConfigToRaw_ok {raw : OidcProviderRaw}
    (h : oidcConfigToRaw platform draw config = .ok raw) :
    ∃ encrypted, raw = providerRaw platform draw config encrypted ∧
      ((config.clientSecret.isEmpty = true ∧ encrypted = "") ∨
        (config.clientSecret.isEmpty = false ∧
          platform.encryptSecret draw config.clientSecret = .ok encrypted)) := by
  unfold oidcConfigToRaw at h
  cases hempty : config.clientSecret.isEmpty with
  | true =>
      rw [if_pos hempty] at h
      exact ⟨"", (Except.ok.inj h).symm, .inl ⟨rfl, rfl⟩⟩
  | false =>
      rw [if_neg (by simp [hempty])] at h
      cases hencrypt : platform.encryptSecret draw config.clientSecret with
      | error e =>
          rw [hencrypt] at h
          cases h
      | ok encrypted =>
          rw [hencrypt] at h
          exact ⟨encrypted, (Except.ok.inj h).symm, .inr ⟨rfl, rfl⟩⟩

/-- What a configuration's raw row stores is opened to its secret. -/
theorem openSecret_of_oidcConfigToRaw (hopens : platform.OpensSecrets) {raw : OidcProviderRaw}
    (h : oidcConfigToRaw platform draw config = .ok raw) :
    platform.openSecret raw.clientSecretEnc = .ok config.clientSecret := by
  obtain ⟨encrypted, rfl, ⟨hempty, rfl⟩ | ⟨hempty, hencrypt⟩⟩ := oidcConfigToRaw_ok h
  · rw [String.isEmpty_iff.mp hempty]
    rfl
  · exact openSecret_of_encrypt hopens hencrypt

/-- The first row of the provider is that of the last configuration, but for the secret:
that one is opened to the last nonempty one. -/
def ProviderKept (platform : ConfigPlatform) (id : String) (rows : List OidcColumns)
    (history : List OidcProviderConfig) : Prop :=
  match history.getLast? with
  | none => selectFirst (·.id == id) rows = none
  | some last => last.id = id ∧ ∃ draw encrypted, last.ReadsBack platform draw ∧
      selectFirst (·.id == id) rows = some (providerRaw platform draw last encrypted).columns ∧
      platform.openSecret encrypted = .ok (lastNonEmpty (history.map (·.clientSecret)))

/-- Where the first row of the provider stays, the rows are still in step. -/
theorem ProviderKept.congr {rows rows' : List OidcColumns}
    (h : ProviderKept platform id rows history)
    (hsame : selectFirst (·.id == id) rows' = selectFirst (·.id == id) rows) :
    ProviderKept platform id rows' history := by
  unfold ProviderKept at h ⊢
  rw [hsame]
  exact h

/-- The assignments of an update make the row that of the configuration, and keep its
secret. -/
theorem assign_eq {raw : OidcProviderRaw} {row : OidcColumns} {encrypted : String}
    (hraw : raw = providerRaw platform draw config encrypted) (hid : row.id = config.id) :
    raw.assign row = (providerRaw platform draw config row.clientSecretEnc).columns := by
  rw [hraw]
  unfold OidcProviderRaw.assign providerRaw OidcProviderRaw.columns
  rw [hid]

/-- A failed creation changes nothing. -/
theorem createOidcProvider_error {e : IamError}
    (h : (createOidcProvider platform draw config db).1 = .error e) :
    (createOidcProvider platform draw config db).2 = db := by
  unfold createOidcProvider at h ⊢
  cases hconvert : oidcConfigToRaw platform draw config with
  | error e => rfl
  | ok raw =>
      by_cases hexists : db.oidcProviders.any (·.id == raw.id) = true
      · simp only [hexists, if_true]
      · simp [hconvert, hexists] at h

/-- Where no row has the id, none is changed. -/
theorem forall_of_filter_length {rows : List OidcColumns} {id : String}
    (h : (rows.filter (·.id == id)).length = 0) : ∀ row ∈ rows, (row.id == id) = false := by
  intro row hrow
  have hnone := List.filter_eq_nil_iff.mp (List.length_eq_zero_iff.mp h) row hrow
  simpa using hnone

/-- A failed update changes nothing. -/
theorem updateOidcProvider_error {e : IamError}
    (h : (updateOidcProvider platform draw config db).1 = .error e) :
    (updateOidcProvider platform draw config db).2 = db := by
  unfold updateOidcProvider at h ⊢
  cases hconvert : oidcConfigToRaw platform draw config with
  | error e => rfl
  | ok raw =>
      by_cases hrows : (db.oidcProviders.filter (·.id == raw.id)).length = 0
      · simp only [hrows, if_true]
        rw [updateRows_eq_self (forall_of_filter_length hrows)]
      · simp [hconvert, hrows] at h

/-- A failed deletion changes nothing. -/
theorem deleteOidcProvider_error {e : IamError} (h : (deleteOidcProvider id db).1 = .error e) :
    (deleteOidcProvider id db).2 = db := by
  unfold deleteOidcProvider at h ⊢
  by_cases hrows : (db.oidcProviders.filter (·.id == id)).length = 0
  · simp only [hrows, if_true]
    rw [deleteRows_eq_self (forall_of_filter_length hrows)]
  · simp [hrows] at h

/-- **Creating a provider** begins its history, and is nothing to the others. -/
theorem createOidcProvider_kept (hopens : platform.OpensSecrets)
    (hreads : config.ReadsBack platform draw)
    (hkept : ProviderKept platform id db.oidcProviders history)
    (h : createOidcProvider platform draw config db = (.ok (), db')) :
    ProviderKept platform id db'.oidcProviders (if config.id = id then [config] else history) ∧
      db'.smtpConfig = db.smtpConfig := by
  unfold createOidcProvider at h
  cases hconvert : oidcConfigToRaw platform draw config with
  | error e => simp [hconvert] at h
  | ok raw =>
      have hopen := openSecret_of_oidcConfigToRaw hopens hconvert
      obtain ⟨encrypted, hraw, -⟩ := oidcConfigToRaw_ok hconvert
      have hid : raw.id = config.id := by rw [hraw]; rfl
      simp only [hconvert] at h
      by_cases hexists : db.oidcProviders.any (·.id == raw.id) = true
      · simp [hexists] at h
      · rw [if_neg hexists] at h
        obtain ⟨-, rfl⟩ := Prod.mk.inj h
        refine ⟨?_, rfl⟩
        by_cases hsame : config.id = id
        · have hnone : selectFirst (·.id == id) db.oidcProviders = none := by
            rw [selectFirst_none]
            intro row hrow
            rw [← hsame, ← hid]
            simpa using fun heq => hexists (List.any_eq_true.mpr ⟨row, hrow, by simpa using heq⟩)
          have hmatch : (raw.columns.id == id) = true := by
            simp [OidcProviderRaw.columns, hid, hsame]
          rw [if_pos hsame]
          unfold ProviderKept
          simp only [List.getLast?_singleton]
          refine ⟨hsame, draw, encrypted, hreads, ?_, ?_⟩
          · rw [selectFirst_insertRow, hnone, hmatch, ← hraw]
            rfl
          · rw [hraw] at hopen
            rw [List.map_singleton, lastNonEmpty_singleton]
            exact hopen
        · rw [if_neg hsame]
          have hother : (raw.columns.id == id) = false := by
            simp [OidcProviderRaw.columns, hid, hsame]
          refine hkept.congr ?_
          rw [selectFirst_insertRow, hother]
          simp

/-- An update of the provider that is there. -/
theorem ProviderKept.update {raw : OidcProviderRaw} {rows : List OidcColumns}
    {row : OidcColumns} {encrypted : String} (hreads : config.ReadsBack platform draw)
    (hkept : ProviderKept platform id rows history)
    (hraw : raw = providerRaw platform draw config encrypted)
    (hopen : platform.openSecret raw.clientSecretEnc = .ok config.clientSecret)
    (hsame : config.id = id) (hfirst : selectFirst (·.id == id) rows = some row) :
    ProviderKept platform id
      (updateRows (·.id == id)
        (if !config.clientSecret.isEmpty then raw.assignWithSecret else raw.assign) rows)
      (history ++ [config]) := by
  have hrowId : row.id = config.id := by
    rw [hsame]
    simpa using (selectFirst_some hfirst).2
  have hassigned := assign_eq hraw hrowId
  unfold ProviderKept at hkept ⊢
  rw [List.getLast?_concat, List.map_append, List.map_singleton, lastNonEmpty_concat]
  cases hlast : history.getLast? with
  | none =>
      rw [hlast, hfirst] at hkept
      cases hkept
  | some last =>
      rw [hlast, hfirst] at hkept
      obtain ⟨-, lastDraw, stored, -, hstored, hsecret⟩ := hkept
      have hrow : row.clientSecretEnc = stored := by
        rw [Option.some.inj hstored]
        rfl
      refine ⟨hsame, draw, ?_⟩
      by_cases hempty : config.clientSecret.isEmpty = true
      · -- the stored secret stays
        refine ⟨stored, hreads, ?_, by rw [if_pos hempty]; exact hsecret⟩
        rw [if_neg (by simp [hempty]), selectFirst_updateRows, hfirst, Option.map_some, hassigned,
          hrow]
        intro old hold
        exact hold
      · -- it is rewritten
        refine ⟨raw.clientSecretEnc, hreads, ?_, by rw [if_neg hempty]; exact hopen⟩
        rw [if_pos (by simp [hempty]), selectFirst_updateRows, hfirst, Option.map_some]
        · unfold OidcProviderRaw.assignWithSecret
          rw [hassigned]
          rfl
        · intro old hold
          exact hold

/-- **Updating a provider** adds to its history, and is nothing to the others. -/
theorem updateOidcProvider_kept (hopens : platform.OpensSecrets)
    (hreads : config.ReadsBack platform draw)
    (hkept : ProviderKept platform id db.oidcProviders history)
    (h : updateOidcProvider platform draw config db = (.ok (), db')) :
    ProviderKept platform id db'.oidcProviders
        (if config.id = id then history ++ [config] else history) ∧
      db'.smtpConfig = db.smtpConfig := by
  unfold updateOidcProvider at h
  cases hconvert : oidcConfigToRaw platform draw config with
  | error e => simp [hconvert] at h
  | ok raw =>
      have hopen := openSecret_of_oidcConfigToRaw hopens hconvert
      obtain ⟨encrypted, hraw, -⟩ := oidcConfigToRaw_ok hconvert
      have hid : raw.id = config.id := by rw [hraw]; rfl
      simp only [hconvert] at h
      by_cases hrows : (db.oidcProviders.filter (·.id == raw.id)).length = 0
      · simp [hrows] at h
      · rw [if_neg hrows] at h
        obtain ⟨-, rfl⟩ := Prod.mk.inj h
        refine ⟨?_, rfl⟩
        by_cases hsame : config.id = id
        · rw [if_pos hsame]
          rw [hid, hsame] at hrows ⊢
          obtain ⟨row, hrow⟩ := List.exists_mem_of_length_pos (Nat.pos_of_ne_zero hrows)
          obtain ⟨hmem, hmatch⟩ := List.mem_filter.mp hrow
          have hfound : ∃ first, selectFirst (fun row : OidcColumns => row.id == id)
              db.oidcProviders = some first := exists_selectFirst hmem hmatch
          obtain ⟨first, hfirst⟩ := hfound
          exact ProviderKept.update hreads hkept hraw hopen hsame hfirst
        · rw [if_neg hsame]
          refine hkept.congr ?_
          refine selectFirst_updateRows_other ?_ ?_
          · intro row hrow
            have hrowId : row.id = config.id := by simpa [hid] using hrow
            simp [hrowId, hsame]
          · intro row hrow
            have hrowId : row.id = config.id := by simpa [hid] using hrow
            have hkeeps : ((if !config.clientSecret.isEmpty then raw.assignWithSecret
                else raw.assign) row).id = row.id := by
              split <;> rfl
            rw [beq_eq_false_iff_ne, hkeeps, hrowId]
            exact hsame

/-- **Deleting a provider** ends its history, and is nothing to the others. -/
theorem deleteOidcProvider_kept {deleted : String}
    (hkept : ProviderKept platform id db.oidcProviders history)
    (h : deleteOidcProvider deleted db = (.ok (), db')) :
    ProviderKept platform id db'.oidcProviders (if deleted = id then [] else history) ∧
      db'.smtpConfig = db.smtpConfig := by
  unfold deleteOidcProvider at h
  by_cases hrows : (db.oidcProviders.filter (·.id == deleted)).length = 0
  · simp [hrows] at h
  · simp only [hrows, if_false, Prod.mk.injEq, true_and] at h
    subst h
    refine ⟨?_, rfl⟩
    by_cases hsame : deleted = id
    · rw [if_pos hsame, hsame]
      exact selectFirst_deleteRows_self
    · rw [if_neg hsame]
      refine hkept.congr (selectFirst_deleteRows_other ?_)
      intro row hrow
      have hrowId : row.id = deleted := by simpa using hrow
      simp [hrowId, hsame]

/-- Everything but the scopes is read back from the row. -/
theorem rawToOidcConfig_providerRaw (hreads : config.ReadsBack platform draw)
    {encrypted secret : String}
    (hopen : platform.openSecret encrypted = .ok secret) :
    rawToOidcConfig platform
        (oidcRowToRaw (providerRaw platform draw config encrypted).columns) =
      .ok { config with
        clientSecret := secret
        scopes := splitWhitespace (" ".intercalate config.scopes) } := by
  unfold OidcProviderConfig.ReadsBack at hreads
  simp only [rawToOidcConfig, oidcRowToRaw, OidcProviderRaw.columns, providerRaw, hopen,
    flagColumn_bne_zero, hreads, Option.getD_some]
  rfl

/-- **What is read back of a provider** is what is to be remembered exactly if the scopes of
the last configuration are words. -/
theorem getOidcProviderConfig_of_kept
    (hkept : ProviderKept platform id db.oidcProviders history) :
    getOidcProviderConfig platform id db = .ok (rememberedProvider history) ↔
      ∀ last, history.getLast? = some last → ∀ scope ∈ last.scopes, IsTextWord scope := by
  unfold getOidcProviderConfig rememberedProvider
  unfold ProviderKept at hkept
  cases hlast : history.getLast? with
  | none =>
      rw [hlast] at hkept
      rw [hkept]
      simp
  | some last =>
      rw [hlast] at hkept
      obtain ⟨-, lastDraw, encrypted, hreads, hstored, hopen⟩ := hkept
      rw [hstored]
      simp only [rawToOidcConfig_providerRaw hreads hopen, Option.map_some, Option.some.injEq,
        forall_eq']
      rw [← splitWhitespace_intercalate_iff]
      constructor
      · intro h
        have hconfig := Option.some.inj (Except.ok.inj h)
        exact congrArg OidcProviderConfig.scopes hconfig
      · intro h
        rw [h]
        rfl

end Providers

/-! ## Every run -/

section Runs

variable {platform : ConfigPlatform} {id : String}

/-- The rows are in step with the successful calls. -/
def ConfigHistory.Kept (platform : ConfigPlatform) (id : String) (db : ConfigDb)
    (history : ConfigHistory) : Prop :=
  SmtpKept platform db.smtpConfig history.smtp ∧
    ProviderKept platform id db.oidcProviders history.provider

/-- A failed call changes nothing. -/
theorem next_of_error {db : ConfigDb} {op : platform.Draw × ConfigCall} {e : IamError}
    (h : (configMachine platform).reply db op = .error e) :
    (configMachine platform).next db op = db := by
  obtain ⟨draw, call⟩ := op
  cases call with
  | setSmtpConfig config => exact setSmtpConfig_error h
  | createOidcProvider config => exact createOidcProvider_error h
  | updateOidcProvider config => exact updateOidcProvider_error h
  | deleteOidcProvider deleted => exact deleteOidcProvider_error h

/-- The lists and maps of a call are read back from their texts. -/
def ConfigCall.ReadsBack (platform : ConfigPlatform) (op : platform.Draw × ConfigCall) : Prop :=
  match op.2 with
  | .setSmtpConfig config => config.ReadsBack platform
  | .createOidcProvider config => config.ReadsBack platform op.1
  | .updateOidcProvider config => config.ReadsBack platform op.1
  | .deleteOidcProvider _ => True

/-- **One call** keeps the rows in step. -/
theorem configsKept_next (hopens : platform.OpensSecrets) {db : ConfigDb} {history : ConfigHistory}
    {op : platform.Draw × ConfigCall} (hreads : ConfigCall.ReadsBack platform op)
    (hkept : history.Kept platform id db) :
    (ConfigHistory.note id history db op ((configMachine platform).reply db op)).Kept platform id
      ((configMachine platform).next db op) := by
  cases hreply : (configMachine platform).reply db op with
  | error e =>
      rw [next_of_error hreply]
      exact hkept
  | ok done =>
      obtain ⟨hsmtp, hprovider⟩ := hkept
      obtain ⟨draw, call⟩ := op
      have hstep : (configMachine platform).step db (draw, call) =
          (.ok (), (configMachine platform).next db (draw, call)) := Prod.ext hreply rfl
      cases call with
      | setSmtpConfig config =>
          obtain ⟨hset, hsame⟩ := setSmtpConfig_kept hopens hreads hsmtp hstep
          exact ⟨hset, by rw [hsame]; exact hprovider⟩
      | createOidcProvider config =>
          obtain ⟨hcreated, hsame⟩ := createOidcProvider_kept hopens hreads hprovider hstep
          exact ⟨by rw [hsame]; exact hsmtp, hcreated⟩
      | updateOidcProvider config =>
          obtain ⟨hupdated, hsame⟩ := updateOidcProvider_kept hopens hreads hprovider hstep
          exact ⟨by rw [hsame]; exact hsmtp, hupdated⟩
      | deleteOidcProvider deleted =>
          obtain ⟨hdeleted, hsame⟩ := deleteOidcProvider_kept hprovider hstep
          exact ⟨by rw [hsame]; exact hsmtp, hdeleted⟩

/-- **Every run** keeps the rows in step. -/
theorem configsKept_after (hopens : platform.OpensSecrets) {calls : List (platform.Draw × ConfigCall)}
    (hreads : ∀ op ∈ calls, ConfigCall.ReadsBack platform op) :
    (configsAfter platform id calls).2.Kept platform id (configsAfter platform id calls).1 := by
  unfold configsAfter
  rw [Machine.observed_after_fst]
  have hall : (configMachine platform).AllSteps
      (fun _ op => ConfigCall.ReadsBack platform op ∧ True) {} calls :=
    ((configMachine platform).allSteps_and_forall_iff {} calls).mpr
      ⟨hreads, (configMachine platform).allSteps_of_forall (fun _ _ => trivial) {} calls⟩
  refine Machine.invariant_observed ?_ ?_ hall
  · intro db history op hkept hread
    exact configsKept_next hopens hread.1 hkept
  · exact ⟨rfl, rfl⟩

end Runs

/-- **Secrets are sticky.**  After every run of the calls, what is read back of the relay is
the last configuration with the last nonempty password; and what is read back of a provider
is the last configuration since its creation with the last nonempty secret, exactly if the
scopes of that configuration are words. -/
theorem secrets_sticky_iff {platform : ConfigPlatform} (hopens : platform.OpensSecrets)
    (id : String) {calls : List (platform.Draw × ConfigCall)}
    (hreads : ∀ op ∈ calls, ConfigCall.ReadsBack platform op) :
    getSmtpConfigWithSecret platform (configsAfter platform id calls).1 =
        .ok (rememberedSmtp (configsAfter platform id calls).2.smtp) ∧
      (getOidcProviderConfig platform id (configsAfter platform id calls).1 =
          .ok (rememberedProvider (configsAfter platform id calls).2.provider) ↔
        ∀ last, (configsAfter platform id calls).2.provider.getLast? = some last →
          ∀ scope ∈ last.scopes, IsTextWord scope) := by
  obtain ⟨hsmtp, hprovider⟩ := @configsKept_after platform id hopens calls hreads
  exact ⟨getSmtpConfigWithSecret_of_kept hsmtp, getOidcProviderConfig_of_kept hprovider⟩

/-- A platform that marks what it encrypts, and writes empty lists and maps. -/
def markingPlatform : ConfigPlatform where
  Draw := Unit
  encryptSecret _ secret := .ok ("sealed:" ++ secret)
  decryptSecret encrypted :=
    match stripHead encrypted "sealed:" with
    | some secret => .ok secret
    | none => .error (.encryption "aead::Error")
  recipientsText recipients := if recipients.isEmpty then "[]" else "[..]"
  parseRecipients text := if text = "[]" then some [] else none
  mappingsText _ mappings := if mappings = ∅ then "\x7b\x7d" else "\x7b..\x7d"
  parseMappings text := if text = "\x7b\x7d" then some ∅ else none

theorem markingPlatform_opensSecrets : markingPlatform.OpensSecrets where
  decrypt_encrypt {draw secret encrypted} h := by
    obtain rfl := Except.ok.inj h
    simp only [markingPlatform, stripHead_append]
  encrypt_nonempty {draw secret encrypted} h := by
    obtain rfl := Except.ok.inj h
    simp

/-- A provider with these scopes. -/
def azureProvider (clientSecret : String) (scopes : List String) : OidcProviderConfig where
  id := "azure"
  name := "Azure AD"
  issuerUrl := "https://login.example.com"
  clientId := "strix"
  clientSecret := clientSecret
  redirectUri := "https://console.example.com/callback"
  scopes := scopes

/-- A provider is created, and updated without its secret. -/
def azureCalls (scopes : List String) : List (markingPlatform.Draw × ConfigCall) :=
  [((), .createOidcProvider (azureProvider "first" ["openid"])),
    ((), .updateOidcProvider (azureProvider "" scopes))]

theorem azureCalls_readsBack (scopes : List String) :
    ∀ op ∈ azureCalls scopes, ConfigCall.ReadsBack markingPlatform op := by
  intro op hop
  have hempty : markingPlatform.parseMappings (markingPlatform.mappingsText () ∅) = some ∅ := by
    rfl
  obtain rfl | hop := List.mem_cons.mp hop
  · exact hempty
  · obtain rfl := List.mem_singleton.mp hop
    exact hempty

/-- The update keeps the secret and replaces the scopes. -/
theorem secrets_sticky_iff_azure :
    getOidcProviderConfig markingPlatform "azure"
        (configsAfter markingPlatform "azure" (azureCalls ["openid", "email"])).1 =
      .ok (some (azureProvider "first" ["openid", "email"])) := by
  have hwords : ∀ scope ∈ ["openid", "email"], IsTextWord scope := by
    rw [← splitWhitespace_intercalate_iff]
    decide +kernel
  obtain ⟨-, hprovider⟩ := secrets_sticky_iff markingPlatform_opensSecrets "azure"
    (azureCalls_readsBack ["openid", "email"])
  refine hprovider.mpr ?_
  intro last hlast
  obtain rfl := Option.some.inj hlast
  exact hwords

/-- A scope with a space in it is read back as two. -/
theorem spacedScope_split :
    getOidcProviderConfig markingPlatform "azure"
        (configsAfter markingPlatform "azure" (azureCalls ["openid email"])).1 =
      .ok (some (azureProvider "first" ["openid", "email"])) ∧
    rememberedProvider
        (configsAfter markingPlatform "azure" (azureCalls ["openid email"])).2.provider =
      some (azureProvider "first" ["openid email"]) ∧
    azureProvider "first" ["openid", "email"] ≠ azureProvider "first" ["openid email"] := by
  refine ⟨rfl, rfl, ?_⟩
  intro heq
  have hscopes := congrArg OidcProviderConfig.scopes heq
  revert hscopes
  decide

end Strix
