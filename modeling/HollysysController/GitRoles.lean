import HollysysController.GitWrapper
import HollysysController.Shell.Checks

/-! # Roles of the Git wrapper

A reader may not push. The wrapper says so of the command line as its own loops read it, and the
real Git runs the command line as Git reads it: with global options that the wrapper does not know,
and with aliases. -/

namespace HollysysController.GitWrapper

open Shell

/-! ## The loops of the wrapper -/

namespace Scan

/-- The argument overrides an alias, as the wrapper reads it. -/
def forbids (s : Scan) (argument : Word) : Bool :=
  match s.expectGlobalValue with
  | some value => value == .config && (pattern "alias.*=*").matches argument
  | none => s.beforeCommand &&
      matchesAny [pattern "-calias.*=*", pattern "--config-env=alias.*=*"] argument

def next (s : Scan) (argument : Word) : Scan :=
  match s.expectGlobalValue with
  | some _ => { s with expectGlobalValue := none }
  | none =>
    if s.beforeCommand then
      if skipped.contains argument then
        { s with expectGlobalValue := some .option }
      else if argument = word "-c" ∨ argument = word "--config-env" then
        { s with expectGlobalValue := some .config }
      else if (pattern "-*").matches argument then
        s
      else
        { s with invokedCommand := argument, beforeCommand := false }
    else
      s

end Scan

/-- What the alias patterns match is no option that the wrapper skips a value after. -/
theorem overriding_of {argument : Word}
    (h : argument ∈ skipped ∨ argument = word "-c") :
    matchesAny [pattern "-calias.*=*", pattern "--config-env=alias.*=*"] argument = false := by
  rcases h with h | rfl
  · revert argument
    decide
  · decide

theorem scanStep_eq (world : World) (vars : Vars) (s : Scan) (argument : Word) :
    scanStep world vars s argument =
      if s.forbids argument then die world vars "git_config_override_forbidden" 71
      else .ok (s.next argument) := by
  unfold scanStep Scan.forbids Scan.next
  cases s.expectGlobalValue with
  | some value =>
    simp only [Bool.and_eq_true, beq_iff_eq]
    rfl
  | none =>
    cases s.beforeCommand with
    | false => rfl
    | true =>
      simp only [if_true, Bool.true_and]
      by_cases hskipped : skipped.contains argument = true
      · have hplain := overriding_of (.inl (List.contains_iff_mem.mp hskipped))
        simp only [if_pos hskipped, hplain, Bool.false_eq_true, if_false]
        rfl
      · by_cases hc : argument = word "-c"
        · have hplain := overriding_of (.inr hc)
          simp only [if_neg hskipped, if_pos hc, hplain, Bool.false_eq_true, if_false,
            if_pos (Or.inl hc)]
          rfl
        · simp only [hskipped, hc, Bool.false_eq_true, if_false, false_or]
          split
          · rfl
          · split
            · rfl
            · split <;> rfl

/-- What the second loop leaves. -/
def scanned (arguments : List Word) : Scan := arguments.foldl Scan.next {}

/-- An argument overrides an alias: `alias.…=…` where the wrapper expects a value of `-c` or
`--config-env`, or an option of that kind with its value before the command. -/
def Overrides (arguments : List Word) : Prop :=
  ∃ before a after, arguments = before ++ a :: after ∧ (scanned before).forbids a = true

theorem scan_spec (world : World) (vars : Vars) (arguments : List Word) :
    (arguments.foldlM (scanStep world vars) {} = .ok (scanned arguments) ∧
        ¬ Overrides arguments) ∨
      (∃ r, arguments.foldlM (scanStep world vars) {} = .error r) ∧ Overrides arguments := by
  rcases foldlM_guarded (scanStep_eq world vars) arguments {} with ⟨hok, hgood⟩ | ⟨herror, hbad⟩
  · refine .inl ⟨hok, ?_⟩
    rintro ⟨before, a, after, h, ha⟩
    have hfree := hgood before a after h
    exact Bool.false_ne_true (hfree.symm.trans ha)
  · exact .inr ⟨⟨_, herror⟩, hbad⟩

/-! ## URLs -/

/-- The path is under one of the allowed groups, when there are any. -/
def PathAllowed (world : World) (remotePath : Word) : Prop :=
  world.get "GITLAB_ALLOWED_GROUPS" = [] ∨
    (matchesAny forbiddenPaths (word "/" ++
        substituted ((dropPrefix (word "/") remotePath).map Char.toLower) ++ word "/") = false ∧
      ∃ group ∈ allowedGroups world,
        (quoted group ++ pattern "/*").matches (dropPrefix (word "/") remotePath) = true)

/-- A URL that the wrapper does not refuse. -/
def Acceptable (world : World) (url : Word) : Prop :=
  matchesAny sshPatterns url = false ∧ httpPattern.matches url = false ∧
    if httpsPattern.matches url then
      PathAllowed world (dropPrefix (word "https://" ++ word targetHost) url)
    else matchesAny remotePatterns url = false

/-- The variables after a check that refuses none of the URLs: whether one of them is on the target
host is noted. -/
structure Checked (urls : List Word) (vars vars' : Vars) : Prop where
  targetRemote : vars'.targetRemote = (vars.targetRemote || urls.any httpsPattern.matches)
  invokedCommand : vars'.invokedCommand = vars.invokedCommand
  networkOperation : vars'.networkOperation = vars.networkOperation

theorem Checked.trans {us ws : List Word} {vars vars' vars'' : Vars} (h : Checked us vars vars')
    (h' : Checked ws vars' vars'') : Checked (us ++ ws) vars vars'' where
  targetRemote := by rw [h'.targetRemote, h.targetRemote, List.any_append, Bool.or_assoc]
  invokedCommand := h'.invokedCommand.trans h.invokedCommand
  networkOperation := h'.networkOperation.trans h.networkOperation

theorem checked_records : Records Checked where
  nil vars := ⟨by simp, rfl, rfl⟩
  append h h' := h.trans h'

/-- A check of URLs, which stops when one of them is refused. -/
abbrev Validates (world : World) : List Word → Vars → Script Vars → Prop :=
  Checks (Acceptable world) Checked

theorem validateAllowedPath_spec (world : World) (vars : Vars) (path : Word) :
    (PathAllowed world path ∧ ∃ project,
        validateAllowedPath world vars path = .ok { vars with remoteProject := project }) ∨
      ¬ PathAllowed world path ∧ ∃ r, validateAllowedPath world vars path = .error r := by
  unfold validateAllowedPath PathAllowed
  split
  · next hgroups => exact .inl ⟨.inl hgroups, vars.remoteProject, rfl⟩
  · next hgroups =>
    dsimp only
    split
    · next hforbidden =>
      refine .inr ⟨?_, _, rfl⟩
      rintro (h | ⟨h, -⟩)
      · exact hgroups h
      · rw [hforbidden] at h
        cases h
    · next hforbidden =>
      split
      · next hany =>
        exact .inl ⟨.inr ⟨by simpa using hforbidden, by simpa using hany⟩, _, rfl⟩
      · next hany =>
        refine .inr ⟨?_, _, rfl⟩
        rintro (h | ⟨-, h⟩)
        · exact hgroups h
        · exact hany (List.any_eq_true.mpr h)

theorem validateRemoteUrl_spec (world : World) (vars : Vars) (url : Word) :
    Validates world [url] vars (validateRemoteUrl world vars url) := by
  have hrefuse : ∀ {e : Refusal}, ¬ Acceptable world url →
      Validates world [url] vars (.error e) := fun h =>
    .refused ⟨url, List.mem_singleton_self url, h⟩
  have haccept : Acceptable world url → ∀ u ∈ [url], Acceptable world u := by
    intro h u hu
    rwa [List.mem_singleton.mp hu]
  unfold validateRemoteUrl
  split
  · next hssh => exact hrefuse fun h => by simp [h.1] at hssh
  · next hssh =>
    split
    · next hhttp => exact hrefuse fun h => by simp [h.2.1] at hhttp
    · next hhttp =>
      rw [Bool.not_eq_true] at hssh hhttp
      split
      · next hhttps =>
        rcases validateAllowedPath_spec world vars
            (dropPrefix (word "https://" ++ word targetHost) url) with
          ⟨hallowed, project, hok⟩ | ⟨hdenied, r, herror⟩
        · rw [hok]
          refine .accepted (haccept ⟨hssh, hhttp, by rwa [if_pos hhttps]⟩) ⟨?_, rfl, rfl⟩
          simp [hhttps]
        · rw [herror]
          refine hrefuse fun h => hdenied ?_
          have hpath := h.2.2
          rwa [if_pos hhttps] at hpath
      · next hhttps =>
        split
        · next hremote =>
          refine hrefuse fun h => ?_
          have hforeign := h.2.2
          rw [if_neg hhttps, hremote] at hforeign
          cases hforeign
        · next hremote =>
          refine .accepted (haccept ⟨hssh, hhttp, ?_⟩) ⟨?_, rfl, rfl⟩
          · rw [if_neg hhttps]
            simpa using hremote
          · rw [Bool.not_eq_true] at hhttps
            simp [hhttps]

section Validate

variable {world : World} {context : Word} {vars : Vars}

theorem validateRemoteList_spec (remoteList : Word) :
    Validates world (listed world remoteList) vars (validateRemoteList world vars remoteList) :=
  Checks.each checked_records (fun vars url _ => validateRemoteUrl_spec world vars url) vars

/-- The URLs of a remote. -/
def namedUrls (world : World) (context name : Word) : List Word :=
  listed world (remoteUrls world context name) ++ listed world (pushUrls world context name)

theorem validateRemotes_spec (name : Word) :
    Validates world (namedUrls world context name) vars
      (validateRemotes world context vars name) :=
  (validateRemoteList_spec _).bind checked_records fun _ => validateRemoteList_spec _

/-- The URLs that an argument is taken for. -/
def argumentUrls (world : World) (context argument : Word) : List Word :=
  argument :: namedUrls world context argument

theorem validateArgument_spec (vars : Vars) (argument : Word) :
    Validates world (argumentUrls world context argument) vars
      (validateArgument world context vars argument) :=
  (validateRemoteUrl_spec world vars argument).bind checked_records fun _ =>
    validateRemotes_spec argument

theorem validateArguments_spec (arguments : List Word) :
    Validates world (arguments.flatMap (argumentUrls world context)) vars
      (arguments.foldlM (validateArgument world context) vars) :=
  Checks.foldlM checked_records (fun vars argument _ => validateArgument_spec vars argument) vars

theorem selectStep_eq (s : Vars × Bool) (argument : Word) :
    selectStep world context s argument =
      (validateArgument world context s.1 argument).map fun vars =>
        (vars, s.2 || selects world context argument) := by
  unfold selectStep
  cases validateArgument world context s.1 argument <;> rfl

end Validate

/-! ## Where the script stops -/

section Stops

variable {α : Type} {world : World} {context : Word} {vars : Vars}

theorem stops_dieIf {fails : Bool} {code : String} {exitCode : Nat} {k : Unit → Script α} :
    Stops (dieIf world vars fails code exitCode >>= k) ↔ fails = true ∨ Stops (k ()) :=
  stops_guard_bind stops_error

theorem stops_dieIf_last {fails : Bool} {code : String} {exitCode : Nat} :
    Stops (dieIf world vars fails code exitCode) ↔ fails = true :=
  stops_guard stops_error

/-! ## Authorization -/

/-- What every operation on the target host needs is missing. -/
def Unequipped (world : World) : Prop :=
  world.get "HERMES_PROFILE" = [] ∨
    (profilePattern (world.get "HERMES_PROFILE")).matches (word writers ++ word readers) = false ∨
    world.get "GITLAB_TOKEN" = [] ∨ world.get "GITLAB_ALLOWED_GROUPS" = [] ∨
    world.get "GITLAB_HOST" ≠ word "https://" ++ word targetHost

/-- The operation is a push, and the profile is no writer. -/
def PushForbidden (world : World) (operation : Word) : Prop :=
  operation = word "push" ∧
    (profilePattern (world.get "HERMES_PROFILE")).matches (word writers) = false

theorem authorize_stops {arguments : List Word} {originUrls : Word} :
    Stops (authorize world context arguments originUrls vars) ↔
      Unequipped world ∨
        Refused (Acceptable world) (arguments.flatMap (argumentUrls world context)) ∨
        Refused (Acceptable world) (listed world originUrls) ∨
        Refused (Acceptable world)
          (listed world ((arguments.getLast?.map (pushUrls world context)).getD [])) ∨
        PushForbidden world vars.networkOperation := by
  unfold authorize
  simp only [stops_dieIf, decide_eq_true_eq, Bool.not_eq_true']
  rw [(validateArguments_spec arguments).stops_bind fun v₁ h₁ =>
    (validateRemoteList_spec originUrls).stops_bind fun v₂ h₂ =>
      (validateRemoteList_spec _).stops_bind (K := PushForbidden world vars.networkOperation)
        fun v₃ h₃ => by
          rw [stops_dieIf_last, decide_eq_true_eq, Bool.not_eq_true, h₃.networkOperation,
            h₂.networkOperation, h₁.networkOperation, PushForbidden]]
  simp only [Unequipped, Refused, or_assoc]

/-! ## Network operations -/

/-- An option that no network operation may have. -/
def Overriding (argument : Word) : Prop :=
  matchesAny configOverrides argument = true ∨ matchesAny contextOverrides argument = true

theorem forbidOverrides_stops {arguments : List Word} {k : PUnit → Script α} :
    Stops (arguments.forM (forbidOverride world vars) >>= k) ↔
      (∃ a ∈ arguments, Overriding a) ∨ Stops (k ⟨⟩) := by
  refine stops_guards (fun a ha => ?_) fun a ha => ?_
  · unfold forbidOverride
    split
    · exact stops_error
    · next hconfig =>
      rw [if_pos (ha.resolve_left hconfig)]
      exact stops_error
  · unfold forbidOverride
    rw [if_neg fun h => ha (.inl h), if_neg fun h => ha (.inr h)]
    rfl

/-- No argument selects a remote, and the command looks one up. -/
def looksUp (world : World) (context command : Word) (arguments : List Word) : Bool :=
  !arguments.any (selects world context) &&
    [word "fetch", word "pull", word "push"].contains command

/-- The URLs of the remote that is looked up. -/
def upstreamUrls (world : World) (context command : Word) (arguments : List Word) : List Word :=
  if looksUp world context command arguments then
    namedUrls world context (upstreamRemote world context)
  else []

/-- The URLs of `origin` and of the submodules, for an operation on submodules. -/
def moduleUrls (world : World) (context command : Word) : List Word :=
  if command = word "submodule" then
    namedUrls world context (word "origin") ++ listed world (submoduleUrls world context)
  else []

/-- The list of the remote that is looked up. -/
def upstreamList (world : World) (context command : Word) (arguments : List Word) : Word :=
  if looksUp world context command arguments then
    remoteUrls world context (upstreamRemote world context)
  else world.get "origin_urls"

/-- The list that the authorization checks again. -/
def originList (world : World) (context command : Word) (arguments : List Word) : Word :=
  if command = word "submodule" then remoteUrls world context (word "origin")
  else upstreamList world context command arguments

/-- Everything that a network operation looks at as a URL. -/
def lookedAt (world : World) (context command : Word) (arguments : List Word) : List Word :=
  arguments.flatMap (argumentUrls world context) ++
    (upstreamUrls world context command arguments ++ moduleUrls world context command)

def Relative (url : Word) : Prop :=
  matchesAny [pattern "../*", pattern "./*", pattern "/*"] url = true

/-- A submodule of the operation has a URL relative to another. -/
def RelativeModule (world : World) (context command : Word) : Prop :=
  command = word "submodule" ∧ ∃ url ∈ listed world (submoduleUrls world context), Relative url

theorem validateUpstream_stops {arguments : List Word} {k : Vars × Word → Script α} {K : Prop}
    (hk : ∀ vars', Checked (upstreamUrls world context vars.invokedCommand arguments) vars vars' →
      (Stops (k (vars', upstreamList world context vars.invokedCommand arguments)) ↔ K)) :
    Stops (validateUpstream world context (vars, arguments.any (selects world context)) >>= k) ↔
      Refused (Acceptable world) (upstreamUrls world context vars.invokedCommand arguments) ∨
        K := by
  unfold upstreamUrls upstreamList at *
  by_cases h : looksUp world context vars.invokedCommand arguments
  · have heq : validateUpstream world context (vars, arguments.any (selects world context)) =
        (validateRemotes world context vars (upstreamRemote world context)).map
          fun vars => (vars, remoteUrls world context (upstreamRemote world context)) :=
      (if_pos h).trans (bind_pure_map _ _)
    simp only [if_pos h] at hk ⊢
    rw [heq]
    exact (validateRemotes_spec (upstreamRemote world context)).stops_map_bind hk
  · have heq : validateUpstream world context (vars, arguments.any (selects world context)) =
        (Except.ok vars : Script Vars).map fun vars => (vars, world.get "origin_urls") := if_neg h
    simp only [if_neg h] at hk ⊢
    rw [heq]
    exact (Checks.nil checked_records).stops_map_bind hk

theorem validateSubmoduleUrl_eq {url : Word} (h : ¬ Relative url) (vars : Vars) :
    validateSubmoduleUrl world vars url = validateRemoteUrl world vars url := if_neg h

/-- Submodules with a relative URL stop the script at the latest when it comes to the URL. -/
theorem validateSubmoduleUrls_stops {urls : List Word} (h : ∃ url ∈ urls, Relative url) :
    Stops (urls.foldlM (validateSubmoduleUrl world) vars) := by
  induction urls generalizing vars with
  | nil =>
    obtain ⟨url, hurl, -⟩ := h
    cases hurl
  | cons u urls ih =>
    rw [List.foldlM_cons]
    cases hu : validateSubmoduleUrl world vars u with
    | error e => exact stops_error
    | ok vars' =>
      obtain ⟨url, hurl, hrelative⟩ := h
      rcases List.mem_cons.mp hurl with rfl | hurl
      · have hdie : validateSubmoduleUrl world vars url =
            die world vars "remote_host_mismatch" 70 := if_pos hrelative
        rw [hdie] at hu
        cases hu
      · exact ih ⟨url, hurl, hrelative⟩

theorem validateSubmoduleUrls_spec {urls : List Word} (h : ∀ url ∈ urls, ¬ Relative url) :
    Validates world urls vars (urls.foldlM (validateSubmoduleUrl world) vars) := by
  refine Checks.each checked_records (fun vars url hurl => ?_) vars
  rw [validateSubmoduleUrl_eq (h url hurl)]
  exact validateRemoteUrl_spec world vars url

theorem validateModules_spec
    (h : ∀ url ∈ listed world (submoduleUrls world context), ¬ Relative url) :
    Validates world (namedUrls world context (word "origin") ++
      listed world (submoduleUrls world context)) vars (validateModules world context vars) := by
  unfold validateModules
  refine (validateRemotes_spec (word "origin")).bind checked_records fun vars' => ?_
  exact validateSubmoduleUrls_spec h

theorem validateModules_relative
    (h : ∃ url ∈ listed world (submoduleUrls world context), Relative url) :
    Stops (validateModules world context vars) := by
  unfold validateModules
  cases validateRemotes world context vars (word "origin") with
  | error e => exact stops_error
  | ok vars' =>
    rw [ok_bind]
    exact validateSubmoduleUrls_stops h

theorem validateSubmodules_stops {list : Word} {k : Vars × Word → Script α} {K : Prop}
    (hk : ∀ vars', Checked (moduleUrls world context vars.invokedCommand) vars vars' →
      (Stops (k (vars', if vars.invokedCommand = word "submodule" then
        remoteUrls world context (word "origin") else list)) ↔ K)) :
    Stops (validateSubmodules world context (vars, list) >>= k) ↔
      RelativeModule world context vars.invokedCommand ∨
        Refused (Acceptable world) (moduleUrls world context vars.invokedCommand) ∨ K := by
  unfold moduleUrls RelativeModule at *
  by_cases h : vars.invokedCommand = word "submodule"
  · have heq : validateSubmodules world context (vars, list) =
        (validateModules world context vars).map
          fun vars => (vars, remoteUrls world context (word "origin")) :=
      (if_pos h).trans (bind_pure_map _ _)
    simp only [if_pos h] at hk ⊢
    rw [heq]
    by_cases hrelative : ∃ url ∈ listed world (submoduleUrls world context), Relative url
    · have hstops : Stops (validateModules world context vars) := validateModules_relative hrelative
      obtain ⟨e, he⟩ := hstops
      rw [he]
      exact ⟨fun _ => .inl ⟨h, hrelative⟩, fun _ => stops_error⟩
    · have hplain : ∀ url ∈ listed world (submoduleUrls world context), ¬ Relative url :=
        fun url hurl h => hrelative ⟨url, hurl, h⟩
      rw [(validateModules_spec hplain).stops_map_bind hk]
      exact ⟨.inr, fun hor => hor.resolve_left fun hmod => hrelative hmod.2⟩
  · have heq : validateSubmodules world context (vars, list) =
        (Except.ok vars : Script Vars).map fun vars => (vars, list) := if_neg h
    simp only [if_neg h] at hk ⊢
    rw [heq, (Checks.nil checked_records).stops_map_bind hk]
    exact ⟨.inr, fun hor => hor.resolve_left fun hmod => h hmod.1⟩

/-- Where a network operation stops that is denied on the target host as `denied` says. -/
def NetworkStops (world : World) (context command : Word) (arguments : List Word)
    (denied : Prop) : Prop :=
  rewriteRules world context ≠ [] ∨
    (∃ name ∈ overrideVariables, (world.environ name).isSome = true) ∨
    (∃ a ∈ arguments, Overriding a) ∨
    Refused (Acceptable world) (lookedAt world context command arguments) ∨
    RelativeModule world context command ∨
    (lookedAt world context command arguments).any httpsPattern.matches = true ∧
      (Refused (Acceptable world) (listed world (originList world context command arguments)) ∨
        denied)

/-- What an operation on the target host lacks. -/
def Denied (world : World) (operation : Word) : Prop :=
  Unequipped world ∨ PushForbidden world operation

/-- What stops the last part of a network operation. -/
theorem authorized_stops {arguments : List Word} {originUrls : Word} {e e' : Execution} :
    Stops (if vars.targetRemote = true then do
        authorize world context arguments originUrls vars
        pure e
      else pure e') ↔
      vars.targetRemote = true ∧ Stops (authorize world context arguments originUrls vars) := by
  by_cases h : vars.targetRemote = true
  · rw [if_pos h]
    cases authorize world context arguments originUrls vars with
    | error r => exact ⟨fun _ => ⟨h, stops_error⟩, fun _ => stops_error⟩
    | ok _ => exact ⟨fun hok => absurd hok not_stops_ok, fun hok => absurd hok.2 not_stops_ok⟩
  · rw [if_neg h]
    exact ⟨fun hok => absurd hok not_stops_ok, fun hand => absurd hand.1 h⟩

/-- A URL of the last argument's remote is one of the URLs of the arguments. -/
theorem refused_last {arguments : List Word}
    (h : Refused (Acceptable world)
      (listed world ((arguments.getLast?.map (pushUrls world context)).getD []))) :
    Refused (Acceptable world) (arguments.flatMap (argumentUrls world context)) := by
  obtain ⟨url, hurl, hrefused⟩ := h
  cases hlast : arguments.getLast? with
  | none =>
    rw [hlast] at hurl
    cases hurl
  | some a =>
    rw [hlast] at hurl
    refine ⟨url, List.mem_flatMap.mpr ⟨a, List.mem_of_getLast? hlast, ?_⟩, hrefused⟩
    exact List.mem_cons_of_mem a (List.mem_append_right _ hurl)

theorem validateReach_stops {arguments : List Word} {k : Vars × Word → Script α} {K : Prop}
    (hk : ∀ vars', Checked (lookedAt world context vars.invokedCommand arguments) vars vars' →
      (Stops (k (vars', originList world context vars.invokedCommand arguments)) ↔ K)) :
    Stops (validateReach world context arguments vars >>= k) ↔
      Refused (Acceptable world) (lookedAt world context vars.invokedCommand arguments) ∨
        RelativeModule world context vars.invokedCommand ∨ K := by
  unfold validateReach
  rw [foldlM_flagged selectStep_eq, bind_assoc, Bool.false_or]
  simp only [bind_assoc]
  rw [(validateArguments_spec arguments).stops_map_bind
    (K := Refused (Acceptable world) (upstreamUrls world context vars.invokedCommand arguments) ∨
      RelativeModule world context vars.invokedCommand ∨
        Refused (Acceptable world) (moduleUrls world context vars.invokedCommand) ∨ K)
    fun v₁ h₁ => ?_]
  · rw [lookedAt, refused_append, refused_append]
    tauto
  · rw [← h₁.invokedCommand]
    refine validateUpstream_stops fun v₂ h₂ => ?_
    rw [← h₂.invokedCommand]
    refine validateSubmodules_stops fun v₃ h₃ => ?_
    have hcommand : v₂.invokedCommand = vars.invokedCommand :=
      h₂.invokedCommand.trans h₁.invokedCommand
    have hchecked := h₁.trans (h₂.trans h₃)
    rw [hcommand, h₁.invokedCommand] at hchecked
    rw [hcommand]
    exact hk v₃ hchecked

theorem runNetwork_stops {arguments : List Word} (htarget : vars.targetRemote = false) :
    Stops (runNetwork world context arguments vars) ↔
      NetworkStops world context vars.invokedCommand arguments
        (Denied world vars.networkOperation) := by
  unfold runNetwork
  simp only [stops_dieIf, decide_eq_true_eq, List.any_eq_true, forbidOverrides_stops]
  rw [validateReach_stops (K :=
      (lookedAt world context vars.invokedCommand arguments).any httpsPattern.matches = true ∧
        (Unequipped world ∨
          Refused (Acceptable world) (arguments.flatMap (argumentUrls world context)) ∨
          Refused (Acceptable world)
            (listed world (originList world context vars.invokedCommand arguments)) ∨
          Refused (Acceptable world)
            (listed world ((arguments.getLast?.map (pushUrls world context)).getD [])) ∨
          PushForbidden world vars.networkOperation)) fun vars' h => by
    rw [authorized_stops, authorize_stops, h.targetRemote, h.networkOperation, htarget,
      Bool.false_or]]
  refine or_congr_right (or_congr_right (or_congr_right ?_))
  -- what the authorization looks at again has been accepted
  have hlast : Refused (Acceptable world)
        (listed world ((arguments.getLast?.map (pushUrls world context)).getD [])) →
      Refused (Acceptable world) (arguments.flatMap (argumentUrls world context)) := refused_last
  have hargs : Refused (Acceptable world) (arguments.flatMap (argumentUrls world context)) →
      Refused (Acceptable world) (lookedAt world context vars.invokedCommand arguments) := by
    rw [lookedAt, refused_append]
    exact .inl
  unfold Denied
  tauto

/-! ## The script -/

/-- Where the script stops. -/
def Stopped (world : World) (arguments : List Word) (denied : Word → Prop) : Prop :=
  Overrides arguments ∨
    ((scanned arguments).invokedCommand ≠ [] ∧
      aliasValue world (gitContext arguments) (scanned arguments).invokedCommand ≠ []) ∨
    networkOperation (scanned arguments).invokedCommand ≠ [] ∧
      NetworkStops world (gitContext arguments) (scanned arguments).invokedCommand arguments
        (denied (networkOperation (scanned arguments).invokedCommand))

theorem run_stops {arguments : List Word} :
    Stops (run world arguments) ↔ Stopped world arguments (Denied world) := by
  unfold run Stopped
  rcases scan_spec world (initialVars world) arguments with ⟨hok, hfree⟩ | ⟨⟨r, hr⟩, hbad⟩
  · simp only [hok, hfree, false_or, ok_bind, stops_dieIf, decide_eq_true_eq]
    refine or_congr_right ?_
    split
    · next hnetwork =>
      rw [runNetwork_stops rfl]
      exact ⟨fun h => ⟨hnetwork, h⟩, fun h => h.2⟩
    · next hlocal => exact ⟨fun h => absurd h not_stops_ok, fun h => absurd h.1 hlocal⟩
  · simp only [hr]
    exact ⟨fun _ => .inl hbad, fun _ => stops_error⟩

/-- The real Git gets the arguments, a network operation with options before them. -/
theorem run_argv {arguments : List Word} {e : Execution} (h : run world arguments = .ok e) :
    e.argv = arguments ∨ e.argv = networkOptions ++ arguments := by
  unfold run at h
  obtain ⟨scan, -, h⟩ := of_bind_ok h
  obtain ⟨-, -, h⟩ := of_bind_ok h
  dsimp only at h
  split at h
  · right
    unfold runNetwork at h
    obtain ⟨-, -, h⟩ := of_bind_ok h
    obtain ⟨-, -, h⟩ := of_bind_ok h
    obtain ⟨-, -, h⟩ := of_bind_ok h
    obtain ⟨s, -, h⟩ := of_bind_ok h
    split at h
    · obtain ⟨-, -, h⟩ := of_bind_ok h
      cases h
      rfl
    · cases h
      rfl
  · cases h
    exact .inl rfl

end Stops

/-! ## The real Git -/

/-- A command line as Git reads it. -/
structure CommandLine where
  globals : List Word
  name : Word
  arguments : List Word
  deriving DecidableEq

/-- The real Git. `option` says of a global option whether the next argument is its value, and
`none` where Git ends at it. `command` are the names that Git runs itself. `expand` are the command
lines of Git that a name which is no command runs, by its alias. `pushes` are the URLs to which a
command pushes, and `onTarget` says of a URL that Git connects to the target host for it. -/
structure Git where
  option : Word → Option Bool
  command : Word → Bool
  expand : CommandLine → List (List Word)
  pushes : CommandLine → List Word
  onTarget : Word → Bool

namespace Git

/-- The global options with their values, the command and its arguments. -/
def parse (git : Git) : List Word → Option CommandLine
  | [] => none
  | [w] => if (pattern "-*").matches w then none else some ⟨[], w, []⟩
  | w :: v :: rest =>
    if (pattern "-*").matches w then
      match git.option w with
      | none => none
      | some true =>
        (git.parse rest).map fun line => { line with globals := w :: v :: line.globals }
      | some false =>
        (git.parse (v :: rest)).map fun line => { line with globals := w :: line.globals }
    else
      some ⟨[], w, v :: rest⟩

/-- Git runs the command, directly or through aliases. -/
inductive Runs (git : Git) : List Word → CommandLine → Prop where
  | command {argv : List Word} {line : CommandLine} (hparse : git.parse argv = some line)
      (hname : git.command line.name = true) : Runs git argv line
  | expanded {argv argv' : List Word} {line line' : CommandLine}
      (hparse : git.parse argv = some line) (hname : git.command line.name = false)
      (hexpand : argv' ∈ git.expand line) (hruns : Runs git argv' line') : Runs git argv line'

/-- Git runs the arguments as a push to a remote on the target host. -/
def PushesToTarget (git : Git) (argv : List Word) : Prop :=
  ∃ line, git.Runs argv line ∧ ∃ url ∈ git.pushes line, git.onTarget url = true

end Git

/-- The command line with the options of a network operation. -/
def CommandLine.prefixed (line : CommandLine) : CommandLine :=
  { line with globals := networkOptions ++ line.globals }

/-- What the wrapper relies on: `-c` takes a value, and the two settings that it adds change
neither the aliases nor where a push goes. They pass on to what an alias runs. -/
structure Git.Settings (git : Git) : Prop where
  config : git.option (word "-c") = some true
  expand : ∀ line : CommandLine,
    git.expand line.prefixed = (git.expand line).map (networkOptions ++ ·)
  pushes : ∀ line : CommandLine, git.pushes line.prefixed = git.pushes line

section Prefixed

variable {git : Git} {argv : List Word} {line : CommandLine}

theorem parse_prefixed (hgit : git.Settings) :
    git.parse (networkOptions ++ argv) = (git.parse argv).map CommandLine.prefixed := by
  have hc : ∀ v rest, git.parse (word "-c" :: v :: rest) = (git.parse rest).map fun line =>
      { line with globals := word "-c" :: v :: line.globals } := by
    intro v rest
    have hdash : (pattern "-*").matches (word "-c") = true := by decide
    rw [Git.parse, if_pos hdash, hgit.config]
  have hcons : networkOptions ++ argv = word "-c" :: word "credential.helper=" :: word "-c" ::
      word "http.extraHeader=" :: argv := rfl
  rw [hcons, hc, hc, Option.map_map]
  rfl

/-- The added options change nothing but themselves. -/
theorem runs_prefixed (hgit : git.Settings) (h : git.Runs argv line) :
    git.Runs (networkOptions ++ argv) line.prefixed := by
  induction h with
  | command hparse hname =>
    refine .command ?_ hname
    rw [parse_prefixed hgit, hparse]
    rfl
  | @expanded argv argv' line _ hparse hname hexpand _ ih =>
    have hlong : git.parse (networkOptions ++ argv) = some line.prefixed := by
      rw [parse_prefixed hgit, hparse]
      rfl
    have hmem : networkOptions ++ argv' ∈ git.expand line.prefixed := by
      rw [hgit.expand]
      exact List.mem_map_of_mem hexpand
    exact .expanded hlong hname hmem ih

theorem runs_of_prefixed (hgit : git.Settings) (h : git.Runs (networkOptions ++ argv) line) :
    ∃ line', git.Runs argv line' ∧ line = line'.prefixed := by
  generalize hlong : networkOptions ++ argv = long at h
  induction h generalizing argv with
  | command hparse hname =>
    rw [← hlong, parse_prefixed hgit] at hparse
    obtain ⟨line', hline', rfl⟩ := Option.map_eq_some_iff.mp hparse
    exact ⟨line', .command hline' hname, rfl⟩
  | expanded hparse hname hexpand _ ih =>
    rw [← hlong, parse_prefixed hgit] at hparse
    obtain ⟨line', hline', rfl⟩ := Option.map_eq_some_iff.mp hparse
    rw [hgit.expand] at hexpand
    obtain ⟨argv', hargv', hsame⟩ := List.mem_map.mp hexpand
    obtain ⟨last, hruns, hlast⟩ := ih hsame
    exact ⟨last, .expanded hline' hname hargv' hruns, hlast⟩

theorem pushes_prefixed (hgit : git.Settings) :
    git.PushesToTarget (networkOptions ++ argv) ↔ git.PushesToTarget argv := by
  constructor
  · rintro ⟨line, hruns, url, hurl, htarget⟩
    obtain ⟨line', hruns', rfl⟩ := runs_of_prefixed hgit hruns
    exact ⟨line', hruns', url, hgit.pushes line' ▸ hurl, htarget⟩
  · rintro ⟨line, hruns, url, hurl, htarget⟩
    exact ⟨line.prefixed, runs_prefixed hgit hruns, url, (hgit.pushes line).symm ▸ hurl, htarget⟩

end Prefixed

/-! ## Where the wrapper reads as Git does -/

/-- The options after which the wrapper expects a value. -/
def valued : List Word := skipped ++ [word "-c", word "--config-env"]

/-- Of the global options of the line, those with a value are those the wrapper knows. -/
def Agrees (git : Git) (line : CommandLine) : Prop :=
  ∀ w ∈ line.globals, (pattern "-*").matches w = true → (git.option w = some true ↔ w ∈ valued)

theorem valued_dashed : ∀ w ∈ valued, (pattern "-*").matches w = true := by decide

theorem next_command {w : Word} (h : (pattern "-*").matches w = false) :
    Scan.next {} w = { beforeCommand := false, invokedCommand := w } := by
  have hplain : ∀ x ∈ valued, w ≠ x := by
    rintro x hx rfl
    rw [valued_dashed w hx] at h
    cases h
  unfold Scan.next
  have hskipped : skipped.contains w ≠ true := fun hmem =>
    hplain w (List.mem_append_left _ (List.contains_iff_mem.mp hmem)) rfl
  rw [if_pos rfl, if_neg hskipped, if_neg, if_neg]
  · simp [h]
  · rintro (rfl | rfl)
    · exact hplain _ (by decide) rfl
    · exact hplain _ (by decide) rfl

theorem next_after (command : Word) (arguments : List Word) :
    arguments.foldl Scan.next { beforeCommand := false, invokedCommand := command } =
      { beforeCommand := false, invokedCommand := command } := by
  induction arguments with
  | nil => rfl
  | cons a arguments ih => exact ih

theorem next_valued {w : Word} (h : w ∈ valued) (v : Word) : (Scan.next {} w).next v = {} := by
  rcases List.mem_append.mp h with hskipped | hconfig
  · have hnext : Scan.next {} w = { expectGlobalValue := some .option } := by
      unfold Scan.next
      rw [if_pos rfl, if_pos (List.contains_iff_mem.mpr hskipped)]
    rw [hnext]
    rfl
  · rcases List.mem_pair.mp hconfig with rfl | rfl
    · rfl
    · rfl

theorem next_plain {w : Word} (hdash : (pattern "-*").matches w = true) (h : w ∉ valued) :
    Scan.next {} w = {} := by
  unfold Scan.next
  have hskipped : skipped.contains w ≠ true := fun hmem =>
    h (List.mem_append_left _ (List.contains_iff_mem.mp hmem))
  rw [if_pos rfl, if_neg hskipped, if_neg, if_pos hdash]
  rintro (rfl | rfl)
  · exact h (by decide)
  · exact h (by decide)

/-- **Where the options agree, the wrapper reads the command that Git reads.** -/
theorem scanned_command {git : Git} {arguments : List Word} {line : CommandLine}
    (hparse : git.parse arguments = some line) (hagree : Agrees git line) :
    scanned arguments = { beforeCommand := false, invokedCommand := line.name } := by
  unfold scanned
  induction arguments using Git.parse.induct git generalizing line with
  | case1 => cases hparse
  | case2 w hdash =>
    rw [Git.parse, if_pos hdash] at hparse
    cases hparse
  | case3 w hplain =>
    rw [Git.parse, if_neg hplain] at hparse
    cases hparse
    exact next_command (by simpa using hplain)
  | case4 w v rest hdash hoption =>
    rw [Git.parse, if_pos hdash, hoption] at hparse
    cases hparse
  | case5 w v rest hdash hoption ih =>
    rw [Git.parse, if_pos hdash, hoption] at hparse
    obtain ⟨line', hline', rfl⟩ := Option.map_eq_some_iff.mp hparse
    have hvalued : w ∈ valued := (hagree w List.mem_cons_self hdash).mp hoption
    rw [List.foldl_cons, List.foldl_cons, next_valued hvalued]
    have htail := ih hline' fun x hx =>
      hagree x (List.mem_cons_of_mem w (List.mem_cons_of_mem v hx))
    exact htail
  | case6 w v rest hdash hoption ih =>
    rw [Git.parse, if_pos hdash, hoption] at hparse
    obtain ⟨line', hline', rfl⟩ := Option.map_eq_some_iff.mp hparse
    have hvalued : w ∉ valued := by
      intro hmem
      have htakes := (hagree w List.mem_cons_self hdash).mpr hmem
      rw [hoption] at htakes
      cases htakes
    rw [List.foldl_cons, next_plain hdash hvalued]
    have htail := ih hline' fun x hx => hagree x (List.mem_cons_of_mem w hx)
    exact htail
  | case7 w v rest hplain =>
    rw [Git.parse, if_neg hplain] at hparse
    cases hparse
    rw [List.foldl_cons, next_command (by simpa using hplain), next_after]

/-! ## Readers -/

/-- The words of `READERS`. -/
def readerProfiles : List Word := (fields ' ' (word readers)).filter fun profile => !profile.isEmpty

/-- What denies a reader an operation on the target host. -/
def ReaderDenied (world : World) (operation : Word) : Prop :=
  world.get "GITLAB_TOKEN" = [] ∨ world.get "GITLAB_ALLOWED_GROUPS" = [] ∨
    world.get "GITLAB_HOST" ≠ word "https://" ++ word targetHost ∨ operation = word "push"

theorem readers_known :
    ∀ profile ∈ readerProfiles, profile ≠ [] ∧
      (profilePattern profile).matches (word writers ++ word readers) = true ∧
      (profilePattern profile).matches (word writers) = false := by
  decide +kernel

theorem denied_reader {world : World} {profile operation : Word}
    (hprofile : world.environ "HERMES_PROFILE" = some profile)
    (hreader : profile ∈ readerProfiles) :
    Denied world operation ↔ ReaderDenied world operation := by
  obtain ⟨hnonempty, hknown, hwriter⟩ := readers_known profile hreader
  have hget : world.get "HERMES_PROFILE" = profile := by
    rw [World.get, hprofile]
    rfl
  unfold Denied Unequipped PushForbidden ReaderDenied
  rw [hget, hknown, hwriter]
  simp [hnonempty, or_assoc]

/-- What the URLs on the target host begin with. -/
def targetPrefix : Word := word "https://" ++ word targetHost ++ word "/"

theorem matches_target {url : Word} : httpsPattern.matches url = true ↔ targetPrefix <+: url := by
  have hquoted : httpsPattern = quoted targetPrefix ++ [Piece.any] := by decide
  rw [hquoted]
  exact matches_quoted_any

/-- A push that Git runs directly, read as Git reads it, to a URL the wrapper looks at. -/
theorem plainPush_stopped {world : World} {git : Git} {arguments : List Word} {line : CommandLine}
    (hparse : git.parse arguments = some line) (hagree : Agrees git line)
    (hpush : networkOperation line.name = word "push")
    (htarget : ∃ url ∈ lookedAt world (gitContext arguments) line.name arguments,
      targetPrefix <+: url) :
    Stopped world arguments (ReaderDenied world) := by
  have hname : (scanned arguments).invokedCommand = line.name := by
    rw [scanned_command hparse hagree]
  have hany : (lookedAt world (gitContext arguments) line.name arguments).any
      httpsPattern.matches = true := by
    obtain ⟨url, hurl, hprefix⟩ := htarget
    exact List.any_eq_true.mpr ⟨url, hurl, matches_target.mpr hprefix⟩
  refine .inr (.inr ?_)
  rw [hname, hpush]
  refine ⟨by decide, .inr (.inr (.inr (.inr (.inr ⟨hany, .inr ?_⟩))))⟩
  exact .inr (.inr (.inr rfl))

/-- The wrapper runs no push to the target host. -/
def NeverPushes (world : World) (git : Git) (arguments : List Word) : Prop :=
  ∀ e, run world arguments = .ok e → ¬ git.PushesToTarget e.argv

/-- **What the wrapper keeps a reader from.** The wrapper never runs a push to the target host for
a reader, if and only if one of its checks stops every command line that Git runs as one. -/
theorem reader_pushes_never_iff {world : World} {git : Git} {profile : Word}
    {arguments : List Word} (hgit : git.Settings)
    (hprofile : world.environ "HERMES_PROFILE" = some profile)
    (hreader : profile ∈ readerProfiles) :
    NeverPushes world git arguments ↔
      (git.PushesToTarget arguments → Stopped world arguments (ReaderDenied world)) := by
  have hdenied : Denied world = ReaderDenied world :=
    funext fun operation => propext (denied_reader hprofile hreader)
  rw [← hdenied, ← run_stops]
  have hsame : ∀ e, run world arguments = .ok e →
      (git.PushesToTarget e.argv ↔ git.PushesToTarget arguments) := by
    intro e he
    rcases run_argv he with h | h
    · rw [h]
    · rw [h, pushes_prefixed hgit]
  constructor
  · intro hnever hpushes
    cases hrun : run world arguments with
    | error r => exact ⟨r, rfl⟩
    | ok e => exact absurd ((hsame e hrun).mpr hpushes) (hnever e hrun)
  · intro hstops e he hpushes
    obtain ⟨r, hr⟩ := hstops ((hsame e he).mp hpushes)
    rw [he] at hr
    cases hr

/-! ### Command lines of a reader -/

/-- The values of `-c`. -/
def configValues : List Word → List Word
  | [] => []
  | [_] => []
  | w :: v :: rest =>
    if w = word "-c" then v :: configValues rest else configValues (v :: rest)

/-- The name of a setting, its case left out. -/
def settingName (setting : Word) : Word := (setting.takeWhile (· ≠ '=')).map Char.toLower

/-- The alias that the options define. -/
def aliasSetting (line : CommandLine) : Option Word :=
  ((configValues line.globals).filter fun setting =>
    settingName setting = word "alias." ++ line.name.map Char.toLower).getLast?.map
      fun setting => (setting.dropWhile (· ≠ '=')).drop 1

/-- A Git without aliases in its configuration. -/
def sampleGit : Git where
  option w :=
    if [word "-C", word "-c", word "--git-dir", word "--work-tree", word "--namespace",
        word "--config-env", word "--attr-source"].contains w then
      some true
    else if [word "--help", word "--version"].contains w then
      none
    else
      some false
  command name := name = word "push" || name = word "fetch"
  expand line :=
    match aliasSetting line with
    | some value => [line.globals ++ fields ' ' value ++ line.arguments]
    | none => []
  pushes line :=
    if line.name = word "push" then
      match line.arguments with
      | [] => []
      | remote :: _ =>
        if remote = word "origin" then [word "https://green-git.hollysys.net/group/app.git"]
        else [remote]
    else
      []
  onTarget url := (word "https://green-git.hollysys.net/").isPrefixOf url

theorem aliasSetting_prefixed (line : CommandLine) :
    aliasSetting line.prefixed = aliasSetting line := by
  have hvalues : configValues (networkOptions ++ line.globals) =
      word "credential.helper=" :: word "http.extraHeader=" :: configValues line.globals := by
    simp [networkOptions, configValues]
  have hcredential : ∀ name : Word,
      settingName (word "credential.helper=") ≠ word "alias." ++ name := fun name h => by
    simp [settingName, word] at h
  have hheader : ∀ name : Word,
      settingName (word "http.extraHeader=") ≠ word "alias." ++ name := fun name h => by
    simp [settingName, word] at h
  unfold aliasSetting CommandLine.prefixed
  rw [hvalues, List.filter_cons_of_neg (by simpa using hcredential _),
    List.filter_cons_of_neg (by simpa using hheader _)]

theorem sampleGit_settings : sampleGit.Settings where
  config := by decide
  expand line := by
    simp only [sampleGit, aliasSetting_prefixed]
    cases aliasSetting line with
    | none => rfl
    | some value => simp [CommandLine.prefixed]
  pushes _ := rfl

/-- A tester, beside a checkout of the target host. -/
def readerWorld : World where
  environ name :=
    if name = "HERMES_PROFILE" then some (word "tester")
    else if name = "GITLAB_TOKEN" then some (word "token")
    else if name = "GITLAB_HOST" then some (word "https://green-git.hollysys.net")
    else if name = "GITLAB_ALLOWED_GROUPS" then some (word "group")
    else none
  git _ query :=
    if query.take 2 = [word "remote", word "get-url"] ∧ query.getLast? = some (word "origin") then
      word "https://green-git.hollysys.net/group/app.git\n"
    else
      []
  paths field := [field]

def plainPush : List Word := [word "push", word "origin", word "main"]

/-- `git -c ALIAS.publish=push publish origin main`. -/
def aliasedPush : List Word :=
  [word "-c", word "ALIAS.publish=push", word "publish", word "origin", word "main"]

/-- `git --attr-source HEAD push origin main`. -/
def attrSourcePush : List Word :=
  [word "--attr-source", word "HEAD", word "push", word "origin", word "main"]

theorem plainPush_never :
    sampleGit.PushesToTarget plainPush ∧ NeverPushes readerWorld sampleGit plainPush := by
  let url := word "https://green-git.hollysys.net/group/app.git"
  have hpush : sampleGit.parse plainPush =
        some ⟨[], word "push", [word "origin", word "main"]⟩ ∧
      sampleGit.command (word "push") = true ∧ networkOperation (word "push") = word "push" ∧
      sampleGit.onTarget url = true ∧ word "tester" ∈ readerProfiles ∧
      url ∈ lookedAt readerWorld (gitContext plainPush) (word "push") plainPush ∧
      targetPrefix <+: url := by
    decide +kernel
  obtain ⟨hparse, hname, hnetwork, hurl, hreader, hlooked, htarget⟩ := hpush
  have hruns : sampleGit.Runs plainPush ⟨[], word "push", [word "origin", word "main"]⟩ :=
    .command hparse hname
  have hprofile : readerWorld.environ "HERMES_PROFILE" = some (word "tester") := rfl
  refine ⟨⟨_, hruns, _, List.mem_singleton_self _, hurl⟩, ?_⟩
  refine (reader_pushes_never_iff sampleGit_settings hprofile hreader).mpr fun _ => ?_
  exact plainPush_stopped hparse (fun w hw => by cases hw) hnetwork ⟨url, hlooked, htarget⟩

/-- The alias in capitals is no override for the wrapper, and the option without a place in its
list makes it take the value for the command. Git pushes both. -/
theorem aliasedPush_runs :
    (∃ e, run readerWorld aliasedPush = .ok e ∧ sampleGit.PushesToTarget e.argv) ∧
      ∃ e, run readerWorld attrSourcePush = .ok e ∧ sampleGit.PushesToTarget e.argv := by
  let published : CommandLine :=
    ⟨[word "-c", word "ALIAS.publish=push"], word "publish", [word "origin", word "main"]⟩
  let expanded := [word "-c", word "ALIAS.publish=push", word "push", word "origin", word "main"]
  have halias : run readerWorld aliasedPush = .ok { argv := aliasedPush, askpass := false } ∧
      sampleGit.parse aliasedPush = some published ∧
      sampleGit.command published.name = false ∧ expanded ∈ sampleGit.expand published ∧
      sampleGit.parse expanded = some { published with name := word "push" } ∧
      sampleGit.command (word "push") = true ∧
      sampleGit.onTarget (word "https://green-git.hollysys.net/group/app.git") = true := by
    decide +kernel
  have hattr : run readerWorld attrSourcePush =
        .ok { argv := attrSourcePush, askpass := false } ∧
      sampleGit.parse attrSourcePush =
        some ⟨[word "--attr-source", word "HEAD"], word "push",
          [word "origin", word "main"]⟩ := by
    decide +kernel
  obtain ⟨haliased, hparse, hname, hexpand, hexpanded, hpush, hurl⟩ := halias
  have hruns : sampleGit.Runs aliasedPush { published with name := word "push" } :=
    .expanded hparse hname hexpand (.command hexpanded hpush)
  exact ⟨⟨_, haliased, _, hruns, _, List.mem_singleton_self _, hurl⟩,
    ⟨_, hattr.1, _, .command hattr.2 hpush, _, List.mem_singleton_self _, hurl⟩⟩

end HollysysController.GitWrapper
