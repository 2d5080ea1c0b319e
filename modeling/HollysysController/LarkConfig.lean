import HollysysController.Durable.Files
import HollysysController.Durable.Loops
import HollysysController.ProfileEnv
import HollysysController.Python.JsonLines

/-! # The bot identities of the gateways

The start script writes the configuration of `lark-cli` from the `.env` of each gateway
profile, through a temporary file that takes the place of the old configuration at once. The
Controller looks at both files before it goes on. -/

namespace HollysysController.Profiles

open Python Durable
open Durable.Files (Path Disk Node)
open WorkerSupervisor (encodeUtf8)

inductive ProfileError where
  | os
  /-- A `ValueError`: a text that is not UTF-8, no JSON, or no words. -/
  | value
  | runtime (text : String)
  | recursion
  deriving DecidableEq, Repr

abbrev Script := Prog Files.Op Files.Op.Ret ProfileError

def act (o : Files.Op) : Script o.Ret := Prog.op o

/-- Where the profiles lie, and what the processes that look at them run on. -/
structure Site where
  profilesRoot : Path
  euid : Nat
  puid : Option Nat := none
  /-- The characters that `mkstemp` draws for a profile. -/
  drawn : String → String
  /-- How a text stream hands its bytes to the system. -/
  chunks : List UInt8 → List (List UInt8)
  whole : ∀ bytes, (chunks bytes).flatten = bytes
  repr : Double → Text
  /-- The calls that are left for the arrays and objects of a JSON text. -/
  frames : Nat
  room : 4 ≤ frames
  sha256 : List UInt8 → String

def gatewayProfiles : List String := ["dispatcher", "fde", "prd-writer"]

def pathText (p : Path) : String := "/" ++ String.intercalate "/" p

/-- `read_text(encoding="utf-8")`. -/
def readText (p : Path) : Script (List Char) := do
  match decodeText (← act (.readBytes p)) with
  | some text => pure text
  | none => .raise .value

/-! ## Credentials -/

def placeholderId : List Char := "REPLACE_WITH_FEISHU_APP_ID".toList

def placeholderSecret : List Char := "REPLACE_WITH_FEISHU_APP_SECRET".toList

/-- The id and the secret of the bot, unless the Controller finds one missing. -/
def feishuCredentials (values : Env) : Option (List Char × List Char) :=
  let appId := values.get "FEISHU_APP_ID"
  let appSecret := values.get "FEISHU_APP_SECRET"
  if appId = [] ∨ appSecret = [] ∨ appId = placeholderId ∨ appSecret = placeholderSecret then none
  else some (appId, appSecret)

/-- The id and the secret, unless the start script finds one missing. It takes neither of the
placeholders for either. -/
def scriptCredentials (values : Env) : Option (List Char × List Char) :=
  let appId := values.get "FEISHU_APP_ID"
  let appSecret := values.get "FEISHU_APP_SECRET"
  let placeholders := [placeholderId, placeholderSecret]
  if appId = [] ∨ appSecret = [] ∨ placeholders.contains appId ∨ placeholders.contains appSecret
  then none
  else some (appId, appSecret)

/-! ## The configuration -/

/-- The one bot of a profile. -/
def larkApp (profile : String) (appId appSecret : List Char) : List (Text × Value) := [
  (codePoints "name", .str (codePoints profile)),
  (codePoints "appId", .str (appId.map .char)),
  (codePoints "appSecret", .str (appSecret.map .char)),
  (codePoints "brand", .str (codePoints "feishu")),
  (codePoints "defaultAs", .str (codePoints "bot")),
  (codePoints "strictMode", .str (codePoints "bot")),
  (codePoints "users", .list [])]

def larkPayload (profile : String) (appId appSecret : List Char) : Value :=
  .dict [(codePoints "apps", .list [.dict (larkApp profile appId appSecret)])]

/-- The field of an object is the text. -/
def hasStr (entries : List (Text × Value)) (key : String) (s : Text) : Bool :=
  match Value.get entries key with
  | some (.str t) => t == s
  | _ => false

def hasNoItems (entries : List (Text × Value)) (key : String) : Bool :=
  match Value.get entries key with
  | some (.list []) => true
  | _ => false

/-- What the Controller finds wrong with a decoded configuration. -/
def larkConfigError (profile : String) (appId appSecret : List Char) (decoded : Value) :
    Option String :=
  match decoded.asDict.bind (Value.get · "apps") with
  | some (.list [.dict app]) =>
    if !hasStr app "appId" (appId.map .char) || !hasStr app "appSecret" (appSecret.map .char) then
      some "lark_credentials_mismatch"
    else if !hasStr app "name" (codePoints profile) || !hasStr app "brand" (codePoints "feishu") ||
        !hasStr app "defaultAs" (codePoints "bot") ||
        !hasStr app "strictMode" (codePoints "bot") || !hasNoItems app "users" then
      some "lark_bot_contract_invalid"
    else none
  | _ => some "lark_config_invalid"

namespace Site

variable (σ : Site)

def machine : Machine Files.Op Files.Op.Ret ProfileError Disk := Files.machine σ.euid .os

def envPath (profile : String) : Path := σ.profilesRoot ++ [profile, ".env"]

def configDir (profile : String) : Path :=
  σ.profilesRoot ++ [profile, ".lark-cli", "config", "hermes"]

def configPath (profile : String) : Path := σ.configDir profile ++ ["config.json"]

def temporary (profile : String) : Path :=
  σ.configDir profile ++ [".config." ++ σ.drawn profile ++ ".tmp"]

/-- The bytes of the configuration. -/
def configBytes (profile : String) (appId appSecret : List Char) :
    Except ProfileError (List UInt8) :=
  match Json.dumps σ.repr (larkPayload profile appId appSecret) with
  | .error _ => .error .value
  | .ok text =>
    match encode (text ++ [CodePoint.char '\n']) with
    | none => .error .value
    | some chars => .ok (encodeUtf8 chars)

/-! ## The start script -/

/-- `assert_no_symlink`: the target and the directories below the root, upwards. -/
def assertNoSymlink (target : Path) : Script Unit :=
  (target.inits.filter fun p => σ.profilesRoot.length < p.length).reverse.forM fun current => do
    if ← act (.isSymlink current) then
      .raise (.runtime s!"lark config path is a symlink: {pathText current}")

/-- Write the temporary file and let it take the place of the configuration. -/
def writeConfig (profile : String) (appId appSecret : List Char) : Script Unit := do
  act (.chmod (σ.temporary profile) 0o600)
  match σ.configBytes profile appId appSecret with
  | .error e => .raise e
  | .ok bytes =>
    (σ.chunks bytes).forM fun chunk => act (.append (σ.temporary profile) chunk)
    act (.sync (σ.temporary profile))
    act (.replace (σ.temporary profile) (σ.configPath profile))
    act (.chmod (σ.configPath profile) 0o600)

/-- The `finally` of the start script. -/
def removeTemporary (profile : String) : Script Unit := do
  if ← act (.present (σ.temporary profile)) then act (.unlink (σ.temporary profile))

def replaceConfig (profile : String) (appId appSecret : List Char) : Script Unit := do
  σ.assertNoSymlink (σ.configPath profile)
  act (.makeDirs (σ.configDir profile))
  act (.chmod (σ.configDir profile) 0o700)
  if ← act (.isSymlink (σ.configPath profile)) then
    .raise (.runtime s!"lark config target is a symlink: {profile}")
  else
    act (.makeTemp (σ.temporary profile))
    let ending ← (σ.writeConfig profile appId appSecret).attempt
    σ.removeTemporary profile
    match ending with
    | .ok _ => pure ()
    | .error e => .raise e

/-- `synchronize_profile`. -/
def synchronizeProfile (profile : String) : Script Unit := do
  let missing : Script Unit := .raise (.runtime s!"missing regular Profile env: {profile}")
  if ← act (.isSymlink (σ.envPath profile)) then missing
  else if !(← act (.isFile (σ.envPath profile))) then missing
  else
    match dotenvValues (← readText (σ.envPath profile)) with
    | .error _ => .raise .value
    | .ok values =>
      match scriptCredentials values with
      | none => .raise (.runtime s!"missing Feishu bot credentials: {profile}")
      | some (appId, appSecret) => σ.replaceConfig profile appId appSecret

/-- `main` of the start script. -/
def synchronize : Script Unit := do
  let irregular : Script Unit := .raise (.runtime "Profile root must be a regular directory")
  if ← act (.isSymlink σ.profilesRoot) then irregular
  else if !(← act (.isDir σ.profilesRoot)) then irregular
  else gatewayProfiles.forM σ.synchronizeProfile

/-! ## The check of the Controller -/

/-- `trusted_runtime_uids`. -/
def trusted (uid : Nat) : Bool := uid == 0 || uid == σ.euid || σ.puid == some uid

def scope (profile : String) (appId appSecret : List Char) : String :=
  σ.sha256 (encodeUtf8 (profile.toList ++ '\x00' :: appId ++ '\x00' :: appSecret))

/-- The checks of `lark_profile_preflight`, in their order: the code of the first that fails,
or the credentials. -/
def larkChecks (profile : String) : Script (Except String (List Char × List Char)) := do
  match feishuCredentials (readProfileEnv (← readText (σ.envPath profile))) with
  | none => pure (.error "missing_feishu_credentials")
  | some (appId, appSecret) =>
    if ← act (.isSymlink (σ.configPath profile)) then pure (.error "missing_lark_config")
    else if !(← act (.isFile (σ.configPath profile))) then pure (.error "missing_lark_config")
    else
      let info ← act (.stat (σ.configPath profile))
      if info.all fun f => decide (f.mode &&& 0o077 ≠ 0) || !σ.trusted f.uid then
        pure (.error "lark_config_permissions")
      else
        match Json.loads σ.frames ((← readText (σ.configPath profile)).map .char) with
        | .error .value => .raise .value
        | .error .recursion => .raise .recursion
        | .ok decoded =>
          match larkConfigError profile appId appSecret decoded with
          | some code => pure (.error code)
          | none => pure (.ok (appId, appSecret))

end Site

/-- What the check reports of a profile. -/
structure LarkPreflight where
  profile : String
  configPath : String
  ok : Bool := false
  errorCode : Option String := none
  identity : Option String := none
  credentialScope : Option String := none
  deriving DecidableEq, Repr

/-- `lark_profile_preflight`. An error of the system or of a text is a code of its own. -/
def Site.larkProfilePreflight (σ : Site) (profile : String) : Script LarkPreflight :=
  let result : LarkPreflight := { profile, configPath := pathText (σ.configPath profile) }
  if !gatewayProfiles.contains profile then .raise .value
  else do
    match ← (σ.larkChecks profile).attempt with
    | .ok (.ok (appId, appSecret)) =>
      pure { result with
        ok := true, identity := some "bot",
        credentialScope := some (σ.scope profile appId appSecret) }
    | .ok (.error code) => pure { result with errorCode := some code }
    | .error .os | .error .value =>
      pure { result with errorCode := some "lark_config_unreadable" }
    | .error e => .raise e

/-! ## The configuration is read back -/

section Payload

variable {σ : Site} {profile : String} {appId appSecret : List Char}

theorem regular_larkPayload : Json.Regular (larkPayload profile appId appSecret) := by
  simp [larkPayload, larkApp, Json.Regular, Json.RegularItems, Json.RegularEntries, codePoints]

theorem spelled_codePoints (s : String) : ∀ x ∈ codePoints s, ∃ c : Char, x = .char c := by
  intro x hx
  obtain ⟨c, -, rfl⟩ := List.mem_map.mp hx
  exact ⟨c, rfl⟩

theorem spelled_map (s : List Char) : ∀ x ∈ s.map CodePoint.char, ∃ c : Char, x = .char c := by
  intro x hx
  obtain ⟨c, -, rfl⟩ := List.mem_map.mp hx
  exact ⟨c, rfl⟩

theorem filed_larkPayload (repr : Double → Text) :
    Json.Filed (Json.write repr 0 (larkPayload profile appId appSecret)) := by
  refine Json.write_filed repr _ 0 regular_larkPayload ?_ ?_
  · show Json.Spelled [codePoints profile, appId.map .char, appSecret.map .char,
      codePoints "feishu", codePoints "bot", codePoints "bot"]
    simp only [Json.spelled_cons]
    exact ⟨spelled_codePoints _, spelled_map _, spelled_map _, spelled_codePoints _,
      spelled_codePoints _, spelled_codePoints _, nofun⟩
  · show Json.Spelled (["apps", "name", "appId", "appSecret", "brand", "defaultAs", "strictMode",
      "users"].map codePoints)
    intro s hs
    obtain ⟨key, -, rfl⟩ := List.mem_map.mp hs
    exact spelled_codePoints key

theorem configBytes_of {text : Text} {chars : List Char}
    (hdumps : Json.dumps σ.repr (larkPayload profile appId appSecret) = .ok text)
    (hchars : text ++ [CodePoint.char '\n'] = chars.map .char) :
    σ.configBytes profile appId appSecret = .ok (encodeUtf8 chars) := by
  unfold Site.configBytes
  split
  · next e he =>
    rw [hdumps] at he
    cases he
  · next t ht =>
    rw [hdumps] at ht
    obtain rfl := Except.ok.inj ht
    rw [hchars, encode_map]

/-- The bytes of the configuration give back the configuration. -/
theorem configBytes_spec : ∃ chars, σ.configBytes profile appId appSecret = .ok (encodeUtf8 chars) ∧
    decodeText (encodeUtf8 chars) = some chars ∧
    Json.loads σ.frames (chars.map .char) = .ok (larkPayload profile appId appSecret) := by
  have hwritten : Json.Written (larkPayload profile appId appSecret) = true := rfl
  have hdumps : Json.dumps σ.repr (larkPayload profile appId appSecret) =
      .ok (Json.write σ.repr 0 (larkPayload profile appId appSecret)) := by
    rw [Json.dumps, if_pos hwritten]
  have hline : Json.Filed [.char '\n'] := .cons (by decide) Json.filed_nil
  obtain ⟨chars, hchars, hfree⟩ := ((filed_larkPayload σ.repr).append hline).chars
  refine ⟨chars, configBytes_of hdumps hchars, decodeText_encodeUtf8 hfree, ?_⟩
  rw [← hchars]
  exact Json.loads_dumps_line regular_larkPayload σ.room hdumps

theorem get_cons {key key' : String} {v : Value} {entries : List (Text × Value)} :
    Value.get ((codePoints key, v) :: entries) key' =
      if key = key' then some v else Value.get entries key' := by
  by_cases h : key = key'
  · simp [Value.get, h]
  · simp [Value.get, h, codePoints_injective.eq_iff]

/-- A configuration is right for the credentials it was written for, and for no others. -/
theorem larkConfigError_payload {id secret : List Char} :
    larkConfigError profile id secret (larkPayload profile appId appSecret) =
      if (id, secret) = (appId, appSecret) then none else some "lark_credentials_mismatch" := by
  have hinj : Function.Injective (List.map CodePoint.char) :=
    List.map_injective_iff.mpr fun c d h => CodePoint.char.inj h
  have hfields : larkConfigError profile id secret (larkPayload profile appId appSecret) =
      if appId.map CodePoint.char ≠ id.map .char ∨ appSecret.map CodePoint.char ≠ secret.map .char
      then some "lark_credentials_mismatch" else none := by
    simp [larkConfigError, larkPayload, larkApp, Value.asDict, get_cons, hasStr, hasNoItems]
  simp only [hfields, hinj.ne_iff, Prod.mk.injEq]
  by_cases hid : id = appId
  · by_cases hsecret : secret = appSecret
    · simp [hid, hsecret]
    · simp [hid, hsecret, Ne.symm hsecret]
  · simp [hid, Ne.symm hid]

end Payload

/-! ## What the Controller finds -/

namespace Site

variable (σ : Site)

/-- The credentials that the `.env` of the profile sets. -/
def credentialsAt (profile : String) (d : Disk) : Option (List Char × List Char) :=
  (d.found (σ.envPath profile)).bind fun f =>
    (decodeText f.bytes).bind fun text => feishuCredentials (readProfileEnv text)

/-- The configuration as the start script writes it for the credentials. -/
def WrittenFor (profile : String) (c : List Char × List Char) (n : Option Node) : Prop :=
  ∃ bytes, σ.configBytes profile c.1 c.2 = .ok bytes ∧
    n = some (.file { bytes, mode := 0o600, uid := σ.euid })

variable {σ} {profile : String} {c : List Char × List Char} {d d' : Disk}

theorem eval_act_ok {o : Files.Op} {a : o.Ret}
    (h : Files.exec σ.euid ProfileError.os o d = (.ok a, d')) :
    σ.machine.eval (act o) d = (.returned a, d') := by
  have hexec : σ.machine.exec o d = (.ok a, d') := h
  rw [act, Machine.eval_op, hexec]

theorem eval_act_error {o : Files.Op} {e : ProfileError}
    (h : Files.exec σ.euid ProfileError.os o d = (.error e, d')) :
    σ.machine.eval (act o) d = (.raised e, d') := by
  have hexec : σ.machine.exec o d = (.error e, d') := h
  rw [act, Machine.eval_op, hexec]

theorem eval_readText {p : Path} : σ.machine.eval (readText p) d =
    (match d.found p with
      | none => .raised .os
      | some f =>
        match decodeText f.bytes with
        | none => .raised .value
        | some text => .returned text, d) := by
  rw [readText, Prog.bind_def]
  cases hfound : d.found p with
  | none => rw [σ.machine.eval_bind_raised (eval_act_error (by rw [Files.exec, hfound]))]
  | some f =>
    rw [σ.machine.eval_bind_of (eval_act_ok (by rw [Files.exec, hfound]))]
    dsimp only
    cases decodeText f.bytes <;> rfl

/-- The file that the start script leaves, as the Controller sees it. -/
def larkFile (chars : List Char) : Files.File where
  bytes := encodeUtf8 chars
  mode := 0o600
  uid := σ.euid

theorem written_file {n : Option Node} (h : σ.WrittenFor profile c n) :
    ∃ chars, n = some (.file (σ.larkFile chars)) ∧ decodeText (encodeUtf8 chars) = some chars ∧
      Json.loads σ.frames (chars.map .char) = .ok (larkPayload profile c.1 c.2) := by
  obtain ⟨bytes, hbytes, hnode⟩ := h
  obtain ⟨chars, hchars, hdecode, hloads⟩ :=
    @configBytes_spec σ profile c.1 c.2
  obtain rfl := Except.ok.inj (hbytes.symm.trans hchars)
  exact ⟨chars, hnode, hdecode, hloads⟩

/-- What the checks end with, when the configuration is one that the start script wrote. -/
theorem eval_larkChecks (h : σ.WrittenFor profile c (d (σ.configPath profile))) :
    σ.machine.eval (σ.larkChecks profile) d =
      (match d.found (σ.envPath profile) with
        | none => .raised .os
        | some f =>
          match decodeText f.bytes with
          | none => .raised .value
          | some text =>
            match feishuCredentials (readProfileEnv text) with
            | none => .returned (.error "missing_feishu_credentials")
            | some c' =>
              if c' = c then .returned (.ok c)
              else .returned (.error "lark_credentials_mismatch"), d) := by
  obtain ⟨chars, hnode, hdecode, hloads⟩ := written_file h
  have hlink : d.isLink (σ.configPath profile) = false := by rw [Disk.isLink, hnode]
  have hfound : d.found (σ.configPath profile) = some (σ.larkFile chars) := by
    rw [Disk.found, hnode]
  have hstat : Files.exec σ.euid ProfileError.os (.stat (σ.configPath profile)) d =
      (.ok (some (σ.larkFile chars)), d) := by
    simp only [Files.exec, hnode, hfound]
  rw [larkChecks, Prog.bind_def, Machine.eval_bind, eval_readText]
  cases d.found (σ.envPath profile) with
  | none => rfl
  | some f =>
    dsimp only
    cases decodeText f.bytes with
    | none => rfl
    | some text =>
      dsimp only
      cases feishuCredentials (readProfileEnv text) with
      | none => rfl
      | some c' =>
        dsimp only
        rw [Prog.bind_def, σ.machine.eval_bind_of (eval_act_ok rfl), hlink,
          if_neg Bool.false_ne_true, Prog.bind_def, σ.machine.eval_bind_of (eval_act_ok rfl),
          hfound, if_neg (by simp), Prog.bind_def, σ.machine.eval_bind_of (eval_act_ok hstat),
          if_neg (by simp [larkFile, trusted]), Prog.bind_def, Machine.eval_bind, eval_readText,
          hfound]
        dsimp only [larkFile]
        rw [hdecode]
        dsimp only
        rw [hloads]
        dsimp only
        rw [larkConfigError_payload]
        by_cases hsame : c' = c
        · rw [if_pos hsame, if_pos hsame, ← hsame]
          rfl
        · rw [if_neg hsame, if_neg hsame]
          rfl

/-- Nobody writes the two files while they are looked at, and nothing fails. -/
def undisturbed (σ : Site) (profile : String) : Setting Files.Op ProfileError Disk where
  others d d' := d' (σ.envPath profile) = d (σ.envPath profile) ∧
    d' (σ.configPath profile) = d (σ.configPath profile)
  faults _ _ f := f = .none

theorem uses_readText {φ : Files.Op → Prop} {p : Path} (h : φ (.readBytes p)) :
    (readText p).Uses φ := by
  refine (Prog.uses_op h).bind fun bytes => ?_
  cases decodeText bytes <;> trivial

theorem uses_larkChecks {φ : Files.Op → Prop} (hread : φ (.readBytes (σ.envPath profile)))
    (h : ∀ o : Files.Op, o.LooksAt (σ.configPath profile) → φ o) :
    (σ.larkChecks profile).Uses φ := by
  refine (uses_readText hread).bind fun text => ?_
  cases feishuCredentials (readProfileEnv text) with
  | none => trivial
  | some c =>
    refine (Prog.uses_op (h (.isSymlink _) rfl)).bind fun link => ?_
    cases link with
    | true => trivial
    | false =>
      refine (Prog.uses_op (h (.isFile _) rfl)).bind fun file => ?_
      cases file with
      | false => trivial
      | true =>
        refine (Prog.uses_op (h (.stat _) rfl)).bind fun info => ?_
        split
        · trivial
        · refine (uses_readText (h (.readBytes _) rfl)).bind fun text => ?_
          split
          · trivial
          · trivial
          · split <;> trivial

theorem uses_larkProfilePreflight {φ : Files.Op → Prop}
    (hread : φ (.readBytes (σ.envPath profile)))
    (h : ∀ o : Files.Op, o.LooksAt (σ.configPath profile) → φ o) :
    (σ.larkProfilePreflight profile).Uses φ := by
  rw [larkProfilePreflight]
  split
  · trivial
  · refine (uses_larkChecks hread h).attempt.bind fun r => ?_
    split <;> trivial

/-- **The check accepts what the start script wrote, for the credentials it was written for.** -/
theorem preflight_written {d' : Disk} {r : LarkPreflight} (hprofile : profile ∈ gatewayProfiles)
    (h : σ.WrittenFor profile c (d (σ.configPath profile)))
    (hrun : Runs σ.machine (σ.undisturbed profile) (σ.larkProfilePreflight profile) d
      (.returned r) d') :
    (r.ok = true ↔ σ.credentialsAt profile d = some c) ∧
      (r.ok = true → r.credentialScope = some (σ.scope profile c.1 c.2)) := by
  have hlooks : (σ.larkProfilePreflight profile).Uses fun o =>
      ∃ q ∈ [σ.envPath profile, σ.configPath profile], o.LooksAt q :=
    uses_larkProfilePreflight ⟨_, by simp, rfl⟩ fun o ho => ⟨_, by simp, ho⟩
  have heval : σ.machine.eval (σ.larkProfilePreflight profile) d = (.returned r, d) := by
    refine Files.viewed (fun d d' hd q hq => ?_) (fun _ _ _ hf => hf) hlooks hrun fun _ _ => rfl
    rcases List.mem_pair.mp hq with rfl | rfl
    · exact hd.1
    · exact hd.2
  have hknown : ¬ (!gatewayProfiles.contains profile) = true := by
    simpa using hprofile
  rw [larkProfilePreflight, if_neg hknown, Prog.bind_def, Machine.eval_bind,
    Machine.eval_attempt, eval_larkChecks h] at heval
  rw [credentialsAt]
  cases henv : d.found (σ.envPath profile) with
  | none =>
    rw [henv] at heval
    obtain rfl := Outcome.returned.inj (congrArg Prod.fst heval)
    simp
  | some f =>
    rw [henv] at heval
    dsimp only [Option.bind_some] at heval ⊢
    cases htext : decodeText f.bytes with
    | none =>
      rw [htext] at heval
      obtain rfl := Outcome.returned.inj (congrArg Prod.fst heval)
      simp
    | some text =>
      rw [htext] at heval
      dsimp only [Option.bind_some] at heval ⊢
      cases hc : feishuCredentials (readProfileEnv text) with
      | none =>
        rw [hc] at heval
        obtain rfl := Outcome.returned.inj (congrArg Prod.fst heval)
        simp
      | some c' =>
        rw [hc] at heval
        dsimp only at heval
        by_cases hsame : c' = c
        · rw [if_pos hsame] at heval
          obtain rfl := Outcome.returned.inj (congrArg Prod.fst heval)
          exact ⟨iff_of_true rfl (congrArg some hsame), fun _ => rfl⟩
        · rw [if_neg hsame] at heval
          obtain rfl := Outcome.returned.inj (congrArg Prod.fst heval)
          simp [hsame]

end Site

end HollysysController.Profiles
