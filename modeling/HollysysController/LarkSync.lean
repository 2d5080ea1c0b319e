import HollysysController.LarkConfig

/-! # The start of the bot identities

However the start script ends, whether an operation fails or the process stops, each gateway
finds the configuration from before or a whole one, and the check of the Controller accepts the
latter for the credentials it was written for. -/

namespace HollysysController.Profiles

open Python Durable
open Durable.Files (Path Disk Node)
open WorkerSupervisor (encodeUtf8)

namespace Site

variable {σ : Site} {p q profile : String} {c : List Char × List Char} {d d' d₀ : Disk}

/-! ## The paths of the profiles -/

theorem configPath_inj (h : σ.configPath p = σ.configPath q) : p = q := by
  simpa [configPath, configDir] using h

theorem temporary_ne : σ.temporary p ≠ σ.configPath q := by
  intro h
  have hname : ".config." ++ σ.drawn p ++ ".tmp" = "config.json" :=
    List.singleton_inj.mp (List.append_inj' h rfl).2
  have hchars := congrArg String.toList hname
  simp at hchars

theorem configPath_ne_dir : ¬ σ.configPath q <+: σ.configDir p := by
  intro h
  have hlength := h.length_le
  simp [configPath, configDir] at hlength

/-! ## The start script leaves the other profiles alone -/

/-- Nobody else writes where the configurations lie. Anything may fail, and the process may
stop. -/
def starting (σ : Site) : Setting Files.Op ProfileError Disk where
  others d d' := ∀ profile ∈ gatewayProfiles, ∀ name,
    d' (σ.configDir profile ++ [name]) = d (σ.configDir profile ++ [name])
  faults _ _ _ := True

/-- At some moment since, the `.env` of the profile set the credentials. -/
def Came (σ : Site) (d₀ : Disk) (profile : String) (c : List Char × List Char) : Prop :=
  ∃ d, Evolves σ.machine σ.starting d₀ d ∧ σ.credentialsAt profile d = some c

/-- The configuration of the profile was written since. -/
def Written (σ : Site) (d₀ : Disk) (profile : String) (n : Option Node) : Prop :=
  ∃ c, σ.Came d₀ profile c ∧ σ.WrittenFor profile c n

/-- What the script keeps of the configuration of a profile. -/
structure Kept (σ : Site) (d₀ : Disk) (profile : String) (G : Option Node → Prop) (d : Disk) :
    Prop where
  came : Evolves σ.machine σ.starting d₀ d
  config : G (d (σ.configPath profile))

variable {G : Option Node → Prop}

theorem Kept.others (hq : q ∈ gatewayProfiles) (h : σ.Kept d₀ q G d) (ho : σ.starting.others d d') :
    σ.Kept d₀ q G d' := by
  refine ⟨h.came.others ho, ?_⟩
  rw [configPath, ho q hq]
  exact h.config

theorem Kept.spared {o : Files.Op} (h : σ.Kept d₀ q G d) (ho : ¬ o.Touches (σ.configPath q)) :
    σ.Kept d₀ q G (σ.machine.exec o d).2 := by
  refine ⟨h.came.exec o, ?_⟩
  show G ((Files.exec σ.euid ProfileError.os o d).2 _)
  rw [Files.exec_other ho]
  exact h.config

theorem keeps_spared {α : Type} {x : Script α} (hq : q ∈ gatewayProfiles)
    (h : x.Uses fun o => ¬ o.Touches (σ.configPath q)) :
    Keeps σ.machine σ.starting (σ.Kept d₀ q G) x :=
  fun _ hd => wp_invariant (fun _ _ hk ho => hk.others hq ho) (fun _ _ ho hk => hk.spared ho) h hd

/-- An operation that spares the configuration, with what it does elsewhere. -/
theorem ensures_spared {o : Files.Op} {P : Disk → Prop} {Q : o.Ret → Disk → Prop}
    (hq : q ∈ gatewayProfiles) (ho : ¬ o.Touches (σ.configPath q)) (hk : σ.Kept d₀ q G d)
    (hP : ∀ d', σ.starting.others d d' → P d')
    (hQ : ∀ d' a d'', P d' → Files.exec σ.euid ProfileError.os o d' = (.ok a, d'') → Q a d'') :
    Ensures σ.machine σ.starting (σ.Kept d₀ q G) (act o) Q d :=
  .op (fun _ h => hk.others hq h) (fun _ h => (hk.others hq h).spared ho)
    fun d' a d'' h hx => hQ d' a d'' (hP d' h) hx

/-! ## The temporary file -/

/-- The temporary file holds the bytes. -/
def Holds (σ : Site) (profile : String) (bytes : List UInt8) (d : Disk) : Prop :=
  d (σ.temporary profile) = some (.file { bytes, mode := 0o600, uid := σ.euid })

theorem Holds.others {bytes : List UInt8} (hp : p ∈ gatewayProfiles) (h : σ.Holds p bytes d)
    (ho : σ.starting.others d d') : σ.Holds p bytes d' :=
  (ho p hp _).trans h

/-- An operation on the temporary file. -/
theorem ensures_holds {o : Files.Op} {bytes bytes' : List UInt8} (hp : p ∈ gatewayProfiles)
    (hq : q ∈ gatewayProfiles) (ho : ¬ o.Touches (σ.configPath q)) (hk : σ.Kept d₀ q G d)
    (hd : σ.Holds p bytes d)
    (heffect : ∀ d, σ.Holds p bytes d →
      σ.Holds p bytes' (Files.exec σ.euid ProfileError.os o d).2) :
    Ensures σ.machine σ.starting (σ.Kept d₀ q G) (act o) (fun _ => σ.Holds p bytes') d := by
  refine ensures_spared hq ho hk (fun d' h => hd.others hp h) fun d' a d'' h hx => ?_
  have hafter := heffect d' h
  rwa [hx] at hafter

theorem holds_chmod {bytes : List UInt8} (h : σ.Holds p bytes d) :
    σ.Holds p bytes (Files.exec σ.euid ProfileError.os (.chmod (σ.temporary p) 0o600) d).2 := by
  have hnode : d (σ.temporary p) = _ := h
  simp only [Files.exec, hnode]
  exact Disk.alter_file hnode _

theorem holds_append {bytes chunk : List UInt8} (h : σ.Holds p bytes d) :
    σ.Holds p (bytes ++ chunk)
      (Files.exec σ.euid ProfileError.os (.append (σ.temporary p) chunk) d).2 :=
  Disk.alter_file h _

theorem chunks_ensures {bytes : List UInt8} (hp : p ∈ gatewayProfiles) (hq : q ∈ gatewayProfiles)
    (chunks : List (List UInt8)) (hk : σ.Kept d₀ q G d) (hd : σ.Holds p bytes d) :
    Ensures σ.machine σ.starting (σ.Kept d₀ q G)
      (chunks.forM fun chunk => act (.append (σ.temporary p) chunk))
      (fun _ => σ.Holds p (bytes ++ chunks.flatten)) d := by
  induction chunks generalizing d bytes with
  | nil => exact .pure hk (by simpa using hd)
  | cons chunk chunks ih =>
    refine .bind (ensures_holds hp hq temporary_ne.symm hk hd fun _ => holds_append)
      fun _ d₁ hk₁ hd₁ => ?_
    rw [List.flatten_cons, ← List.append_assoc]
    exact ih hk₁ hd₁

/-! ## The new configuration takes the place of the old -/

theorem exec_replace {bytes : List UInt8} (h : σ.Holds p bytes d) :
    Files.exec σ.euid ProfileError.os (.replace (σ.temporary p) (σ.configPath p)) d =
        (.error .os, d) ∨
      ∃ d', Files.exec σ.euid ProfileError.os (.replace (σ.temporary p) (σ.configPath p)) d =
          (.ok (), d') ∧
        d' (σ.configPath p) = some (.file { bytes, mode := 0o600, uid := σ.euid }) := by
  have hnode : d (σ.temporary p) = _ := h
  simp only [Files.exec, hnode]
  split
  · exact .inl rfl
  · exact .inr ⟨_, rfl, Table.put_self _ _ _⟩

/-- The configuration is the one that was written for the credentials. -/
def Replaced (σ : Site) (profile : String) (c : List Char × List Char) (d : Disk) : Prop :=
  σ.WrittenFor profile c (d (σ.configPath profile))

theorem replace_ensures {bytes : List UInt8} (hp : p ∈ gatewayProfiles) (hq : q ∈ gatewayProfiles)
    (hG : ∀ n, σ.Written d₀ q n → G n) (hcame : σ.Came d₀ p c)
    (hbytes : σ.configBytes p c.1 c.2 = .ok bytes) (hk : σ.Kept d₀ q G d)
    (hd : σ.Holds p bytes d) :
    Ensures σ.machine σ.starting (σ.Kept d₀ q G)
      (act (.replace (σ.temporary p) (σ.configPath p))) (fun _ => σ.Replaced p c) d := by
  refine .op (fun _ h => hk.others hq h) (fun d' h => ?_) fun d' a d'' h hx => ?_
  · have hk' := hk.others hq h
    by_cases hpq : p = q
    · subst hpq
      refine ⟨hk'.came.exec _, ?_⟩
      show G ((Files.exec σ.euid ProfileError.os _ d').2 _)
      rcases exec_replace (hd.others hp h) with hx | ⟨d'', hx, hnew⟩
      · rw [hx]
        exact hk'.config
      · rw [hx]
        exact hG _ ⟨c, hcame, bytes, hbytes, hnew⟩
    · refine hk'.spared ?_
      rintro (heq | heq)
      · exact temporary_ne heq.symm
      · exact hpq (configPath_inj heq.symm)
  · have hexec : Files.exec σ.euid ProfileError.os _ d' = (.ok a, d'') := hx
    rcases exec_replace (hd.others hp h) with hx' | ⟨d₂, hx', hnew⟩
    · rw [hx'] at hexec
      cases hexec
    · rw [hx'] at hexec
      cases hexec
      exact ⟨bytes, hbytes, hnew⟩

/-- The last `chmod` gives the file the mode that it has. -/
theorem exec_chmod (h : σ.Replaced p c d) :
    (Files.exec σ.euid ProfileError.os (.chmod (σ.configPath p) 0o600) d).2 = d := by
  obtain ⟨bytes, -, hnode⟩ := h
  simp only [Files.exec, hnode]
  funext path
  by_cases hpath : path = σ.configPath p
  · rw [hpath, Disk.alter_file hnode, hnode]
  · exact d.alter_ne _ hpath

theorem Replaced.others (hp : p ∈ gatewayProfiles) (h : σ.Replaced p c d)
    (ho : σ.starting.others d d') : σ.Replaced p c d' := by
  rw [Replaced, configPath, ho p hp]
  exact h

theorem chmod_ensures (hp : p ∈ gatewayProfiles) (hq : q ∈ gatewayProfiles)
    (hk : σ.Kept d₀ q G d) (hd : σ.Replaced p c d) :
    Ensures σ.machine σ.starting (σ.Kept d₀ q G) (act (.chmod (σ.configPath p) 0o600))
      (fun _ => σ.Replaced p c) d := by
  have hsame : ∀ d', σ.starting.others d d' →
      (σ.machine.exec (.chmod (σ.configPath p) 0o600) d').2 = d' :=
    fun d' h => exec_chmod (hd.others hp h)
  refine .op (fun _ h => hk.others hq h) (fun d' h => ?_) fun d' a d'' h hx => ?_
  · have hk' := (hk.others hq h)
    exact ⟨hk'.came.exec _, (hsame d' h).symm ▸ hk'.config⟩
  · obtain rfl : d'' = d' := by rw [← hsame d' h, hx]
    exact hd.others hp h

theorem writeConfig_ensures (hp : p ∈ gatewayProfiles) (hq : q ∈ gatewayProfiles)
    (hG : ∀ n, σ.Written d₀ q n → G n) (hcame : σ.Came d₀ p c) (hk : σ.Kept d₀ q G d)
    (hd : σ.Holds p [] d) :
    Ensures σ.machine σ.starting (σ.Kept d₀ q G) (σ.writeConfig p c.1 c.2)
      (fun _ => σ.Replaced p c) d := by
  obtain ⟨chars, hbytes, -, -⟩ :=
    @configBytes_spec σ p c.1 c.2
  refine .bind (ensures_holds hp hq temporary_ne.symm hk hd fun _ => holds_chmod)
    fun _ d₁ hk₁ hd₁ => ?_
  rw [hbytes]
  refine .bind (chunks_ensures hp hq _ hk₁ hd₁) fun _ d₂ hk₂ hd₂ => ?_
  rw [List.nil_append, σ.whole] at hd₂
  refine .bind (ensures_holds hp hq id hk₂ hd₂ fun _ h => h) fun _ d₃ hk₃ hd₃ => ?_
  refine .bind (replace_ensures hp hq hG hcame hbytes hk₃ hd₃) fun _ d₄ hk₄ hd₄ => ?_
  exact chmod_ensures hp hq hk₄ hd₄

/-! ## The script -/

variable {d₁ d₂ d₃ : Disk}

/-- An operation elsewhere. -/
theorem ensures_kept {o : Files.Op} (hq : q ∈ gatewayProfiles)
    (ho : ¬ o.Touches (σ.configPath q)) (hk : σ.Kept d₀ q G d) :
    Ensures σ.machine σ.starting (σ.Kept d₀ q G) (act o) (fun _ _ => True) d :=
  ensures_spared (P := fun _ => True) hq ho hk (fun _ _ => trivial) fun _ _ _ _ _ => trivial

theorem assertNoSymlink_ensures {target : Path} (hq : q ∈ gatewayProfiles)
    (hk : σ.Kept d₀ q G d) :
    Ensures σ.machine σ.starting (σ.Kept d₀ q G) (σ.assertNoSymlink target) (fun _ _ => True)
      d := by
  have hspared : (σ.assertNoSymlink target).Uses fun o => ¬ o.Touches (σ.configPath q) := by
    refine (closed_uses _).forM (fun current => ?_) _
    refine Prog.Uses.bind (Prog.uses_op id) fun link => ?_
    cases link <;> trivial
  exact ((keeps_spared hq hspared).ensures hk fun _ h => h).mono fun _ _ _ _ => trivial

theorem uses_removeTemporary {φ : Files.Op → Prop} (hpresent : φ (.present (σ.temporary p)))
    (hunlink : φ (.unlink (σ.temporary p))) : (σ.removeTemporary p).Uses φ := by
  refine Prog.Uses.bind (Prog.uses_op hpresent) fun present => ?_
  cases present with
  | true => exact Prog.uses_op hunlink
  | false => trivial

/-- The last step of the script leaves the new configuration where it is. -/
theorem removeTemporary_ensures {P : Prop} (hp : p ∈ gatewayProfiles) (hq : q ∈ gatewayProfiles)
    (hk : σ.Kept d₀ q G d) (hd : P → σ.Replaced p c d) :
    Ensures σ.machine σ.starting (σ.Kept d₀ q G) (σ.removeTemporary p)
      (fun _ d' => P → σ.Replaced p c d') d := by
  have hspared : (σ.removeTemporary p).Uses fun o =>
      ¬ o.Touches (σ.configPath q) ∧ ¬ o.Touches (σ.configPath p) :=
    uses_removeTemporary ⟨id, id⟩ ⟨temporary_ne.symm, temporary_ne.symm⟩
  have hboth : wp σ.machine σ.starting (σ.removeTemporary p)
      (fun _ d' => σ.Kept d₀ q G d' ∧ (P → σ.Replaced p c d')) d := by
    refine wp_invariant (fun s s' hs ho => ?_) (fun o s ho hs => ?_) hspared ⟨hk, hd⟩
    · exact ⟨hs.1.others hq ho, fun h => (hs.2 h).others hp ho⟩
    · refine ⟨hs.1.spared ho.1, fun h => ?_⟩
      show σ.WrittenFor p c ((Files.exec σ.euid ProfileError.os o s).2 _)
      rw [Files.exec_other ho.2]
      exact hs.2 h
  exact wp_mono (fun _ _ h => ⟨h.1, fun _ _ => h.2⟩) hboth

theorem makeTemp_ensures (hq : q ∈ gatewayProfiles) (hk : σ.Kept d₀ q G d) :
    Ensures σ.machine σ.starting (σ.Kept d₀ q G) (act (.makeTemp (σ.temporary p)))
      (fun _ => σ.Holds p []) d := by
  refine ensures_spared (P := fun _ => True) hq temporary_ne.symm hk (fun _ _ => trivial)
    fun d' a d'' _ hx => ?_
  simp only [Files.exec] at hx
  split at hx
  · obtain ⟨-, rfl⟩ := Prod.mk.inj hx
    exact Table.put_self _ _ _
  · cases hx

theorem replaceConfig_ensures (hp : p ∈ gatewayProfiles) (hq : q ∈ gatewayProfiles)
    (hG : ∀ n, σ.Written d₀ q n → G n) (hcame : σ.Came d₀ p c) (hk : σ.Kept d₀ q G d) :
    Ensures σ.machine σ.starting (σ.Kept d₀ q G) (σ.replaceConfig p c.1 c.2)
      (fun _ => σ.Replaced p c) d := by
  refine (assertNoSymlink_ensures hq hk).bind fun _ d₁ hk₁ _ => ?_
  have hdir : ¬ σ.configPath q <+: σ.configDir p := configPath_ne_dir
  refine (ensures_kept (o := .makeDirs (σ.configDir p)) hq hdir hk₁).bind fun _ d₂ hk₂ _ => ?_
  have hmode : σ.configPath q ≠ σ.configDir p := fun h => hdir (h ▸ List.prefix_rfl)
  refine (ensures_kept (o := .chmod (σ.configDir p) 0o700) hq hmode hk₂).bind
    fun _ d₃ hk₃ _ => ?_
  refine (ensures_kept hq id hk₃).bind fun link d₄ hk₄ _ => ?_
  cases link with
  | true => exact .raise hk₄
  | false =>
    refine (makeTemp_ensures hq hk₄).bind fun _ d₅ hk₅ hd₅ => ?_
    refine (writeConfig_ensures hp hq hG hcame hk₅ hd₅).attempt.bind fun ending d₆ hk₆ hd₆ => ?_
    refine (removeTemporary_ensures hp hq hk₆ (hd₆ ())).bind fun _ d₇ hk₇ hd₇ => ?_
    cases ending with
    | ok a => exact .pure hk₇ (hd₇ rfl)
    | error e => exact .raise hk₇

/-- What the start script takes for credentials, the Controller takes for the same. -/
theorem feishuCredentials_of_script {text : List Char} {values : Env}
    (hvalues : dotenvValues text = .ok values) (hc : scriptCredentials values = some c) :
    feishuCredentials (readProfileEnv text) = some c := by
  unfold feishuCredentials
  rw [dotenvValues_get hvalues (by decide), dotenvValues_get hvalues (by decide)]
  unfold scriptCredentials at hc
  dsimp only at hc ⊢
  split at hc
  · cases hc
  · next hpresent =>
    rw [if_neg ?_, hc]
    rintro (h | h | h | h) <;> refine hpresent ?_ <;> simp [h]

theorem readEnv_ensures (hq : q ∈ gatewayProfiles) (hk : σ.Kept d₀ q G d) :
    Ensures σ.machine σ.starting (σ.Kept d₀ q G) (readText (σ.envPath p))
      (fun text _ => ∃ d', Evolves σ.machine σ.starting d₀ d' ∧
        ∃ f, d'.found (σ.envPath p) = some f ∧ decodeText f.bytes = some text) d := by
  refine .bind (R := fun bytes _ => ∃ d', Evolves σ.machine σ.starting d₀ d' ∧
    ∃ f, d'.found (σ.envPath p) = some f ∧ f.bytes = bytes) (ensures_spared hq id hk
      (fun d' h => hk.came.others h) fun d' a d'' hd' hx => ?_) fun bytes d₁ hk₁ hread => ?_
  · simp only [Files.exec] at hx
    split at hx
    · next f hf =>
      obtain ⟨ha, -⟩ := Prod.mk.inj hx
      exact ⟨d', hd', f, hf, Except.ok.inj ha⟩
    · cases hx
  · obtain ⟨d', hd', f, hf, rfl⟩ := hread
    cases htext : decodeText f.bytes with
    | none => exact .raise hk₁
    | some text => exact .pure hk₁ ⟨d', hd', f, hf, htext⟩

theorem synchronizeProfile_ensures (hp : p ∈ gatewayProfiles) (hq : q ∈ gatewayProfiles)
    (hG : ∀ n, σ.Written d₀ q n → G n) (hk : σ.Kept d₀ q G d) :
    Ensures σ.machine σ.starting (σ.Kept d₀ q G) (σ.synchronizeProfile p)
      (fun _ d' => σ.Written d₀ p (d' (σ.configPath p))) d := by
  refine (ensures_kept hq id hk).bind fun link d₁ hk₁ _ => ?_
  cases link with
  | true => exact .raise hk₁
  | false =>
    refine (ensures_kept hq id hk₁).bind fun file d₂ hk₂ _ => ?_
    cases file with
    | false => exact .raise hk₂
    | true =>
      refine (readEnv_ensures hq hk₂).bind fun text d₃ hk₃ hread => ?_
      obtain ⟨d', hd', f, hf, htext⟩ := hread
      cases hvalues : dotenvValues text with
      | error e => exact .raise hk₃
      | ok values =>
        dsimp only
        cases hc : scriptCredentials values with
        | none => exact .raise hk₃
        | some c =>
          have hcame : σ.Came d₀ p c := by
            refine ⟨d', hd', ?_⟩
            rw [credentialsAt, hf, Option.bind_some, htext]
            exact feishuCredentials_of_script hvalues hc
          exact (replaceConfig_ensures hp hq hG hcame hk₃).mono fun _ _ _ h => ⟨c, hcame, h⟩

/-- The loop over the profiles: a configuration that was written stays. -/
theorem profiles_ensures (profiles : List String) (hprofiles : profiles ⊆ gatewayProfiles)
    (hq : q ∈ gatewayProfiles) (hG : ∀ n, σ.Written d₀ q n → G n) (hk : σ.Kept d₀ q G d) :
    Ensures σ.machine σ.starting (σ.Kept d₀ q G) (profiles.forM σ.synchronizeProfile)
      (fun _ d' => q ∈ profiles → σ.Written d₀ q (d' (σ.configPath q))) d := by
  induction profiles generalizing d G with
  | nil => exact .pure hk nofun
  | cons p profiles ih =>
    have hrest := List.subset_of_cons_subset hprofiles
    refine (synchronizeProfile_ensures (hprofiles List.mem_cons_self) hq hG hk).bind
      fun _ d₁ hk₁ hwritten => ?_
    by_cases hpq : p = q
    · subst hpq
      refine wp_mono (fun r d₂ h => ?_) (ih hrest (G := σ.Written d₀ p) (fun _ h => h)
        ⟨hk₁.came, hwritten⟩)
      exact ⟨⟨h.1.came, hG _ h.1.config⟩, fun _ _ _ => h.1.config⟩
    · refine (ih hrest hG hk₁).mono fun _ d₂ _ h hmem => h ?_
      exact (List.mem_cons.mp hmem).resolve_left (Ne.symm hpq)

/-- However the start script ends, the configuration of a profile is the one from before or one
written since; and where the script returns, it is the latter. -/
theorem synchronize_leaves {outcome : Durable.Outcome ProfileError Unit} (hq : q ∈ gatewayProfiles)
    (h : Runs σ.machine σ.starting σ.synchronize d₀ outcome d₁) :
    (outcome ≠ .returned () ∧ d₁ (σ.configPath q) = d₀ (σ.configPath q)) ∨
      σ.Written d₀ q (d₁ (σ.configPath q)) := by
  let G : Option Node → Prop := fun n => n = d₀ (σ.configPath q) ∨ σ.Written d₀ q n
  have hstart : σ.Kept d₀ q G d₀ := ⟨.refl, .inl rfl⟩
  have hensures : Ensures σ.machine σ.starting (σ.Kept d₀ q G) σ.synchronize
      (fun _ d' => σ.Written d₀ q (d' (σ.configPath q))) d₀ := by
    refine (ensures_kept hq id hstart).bind fun link d₁ hk₁ _ => ?_
    cases link with
    | true => exact .raise hk₁
    | false =>
      refine (ensures_kept hq id hk₁).bind fun dir d₂ hk₂ _ => ?_
      cases dir with
      | false => exact .raise hk₂
      | true =>
        exact (profiles_ensures gatewayProfiles (List.Subset.refl _) hq (fun _ => .inr) hk₂).mono
          fun _ _ _ h => h hq
  obtain ⟨hkept, hreturned⟩ := hensures.runs h
  rcases hkept.config with hsame | hwritten
  · by_cases hout : outcome = .returned ()
    · exact .inr (hreturned () hout)
    · exact .inl ⟨hout, hsame⟩
  · exact .inr hwritten

def sampleSite : Site where
  profilesRoot := ["opt", "data", "profiles"]
  euid := 1000
  drawn := fun _ => "k3x9q_2m"
  chunks := fun bytes => [bytes]
  whole := fun bytes => by simp
  repr := fun _ => []
  frames := 8
  room := by decide
  sha256 := fun _ => "57c71043c5a26cc51a2664fb2a7d1425e5f63f74c34f3c1b0c115935a4202f12"

def sampleEnv : List UInt8 := encodeUtf8 "FEISHU_APP_ID='a b'\nFEISHU_APP_SECRET=s\n".toList

def sampleDisk : Disk := fun p =>
  if p = sampleSite.profilesRoot then some .dir
  else if p ∈ gatewayProfiles.map sampleSite.envPath then
    some (.file { bytes := sampleEnv, mode := 0o600, uid := 1000 })
  else none

def startedDisk : Disk := (sampleSite.machine.eval sampleSite.synchronize sampleDisk).2

def sampleReport : LarkPreflight where
  profile := "fde"
  configPath := "/opt/data/profiles/fde/.lark-cli/config/hermes/config.json"
  ok := true
  identity := some "bot"
  credentialScope := some "57c71043c5a26cc51a2664fb2a7d1425e5f63f74c34f3c1b0c115935a4202f12"

/-- The start ends well, and the check reports on what it wrote. -/
theorem sampleSite_checked :
    (sampleSite.machine.eval sampleSite.synchronize sampleDisk).1 = .returned () ∧
      (sampleSite.machine.eval (sampleSite.larkProfilePreflight "fde") startedDisk).1 =
        .returned sampleReport := by
  decide +kernel

end Site

end HollysysController.Profiles
