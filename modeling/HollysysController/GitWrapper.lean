import HollysysController.Shell.Words

/-! # The Git wrapper

The script that stands in for `git` in the agents' container: it reads the command line with its
own loops, asks the real Git for the configuration, and refuses what a profile may not do. What it
does not refuse it leaves to the real Git. -/

namespace HollysysController.GitWrapper

open Shell

def targetHost : String := "green-git.hollysys.net"

def writers : String := " prd-writer spec-writer planner tasker coder "

def readers : String :=
  " dispatcher fde spec-reviewer plan-reviewer task-reviewer tester code-reviewer "

/-- What the script meets: the environment, the output of the real Git in a context, and the
expansion of a field to the paths it matches. -/
structure World where
  environ : String → Option Word
  git : Option Word → List Word → Word
  paths : Word → List Word

/-- `${name:-}`. -/
def World.get (world : World) (name : String) : Word := (world.environ name).getD []

def orElse (w : Word) (other : Word) : Word := if w = [] then other else w

/-- The error that `die` prints, and the exit code. -/
structure Refusal where
  code : String
  profile : Word
  project : Word
  operation : Word
  exitCode : Nat
  deriving DecidableEq, Repr

/-- The variables that the error line and the checks read. -/
structure Vars where
  networkOperation : Word
  invokedCommand : Word
  remoteProject : Word
  targetRemote : Bool := false

abbrev Script := Except Refusal

def die {α : Type} (world : World) (vars : Vars) (code : String) (exitCode : Nat) : Script α :=
  .error
    { code := code
      profile := orElse (world.get "HERMES_PROFILE") (word "unknown")
      project := orElse vars.remoteProject (word "unknown")
      operation := orElse vars.networkOperation (orElse vars.invokedCommand (word "unknown"))
      exitCode := exitCode }

/-- `[ … ] || die`. -/
def dieIf (world : World) (vars : Vars) (fails : Bool) (code : String) (exitCode : Nat) :
    Script Unit :=
  if fails then die world vars code exitCode else pure ()

/-! ## The command line -/

/-- The context so far, and whether the next argument is one. -/
def contextStep (s : Word × Bool) (argument : Word) : Word × Bool :=
  if s.2 then
    (argument, false)
  else if argument = word "-C" then
    (s.1, true)
  else if (pattern "-C?*").matches argument then
    (dropPrefix (word "-C") argument, false)
  else
    s

def gitContext (arguments : List Word) : Word := (arguments.foldl contextStep ([], false)).1

def gitQuery (world : World) (context : Word) (query : List Word) : Word :=
  world.git (if context = [] then none else some context) query

/-- `$(git_query … 2>/dev/null || true)`. -/
def gitAnswer (world : World) (context : Word) (query : List Word) : Word :=
  substituted (gitQuery world context query)

inductive GlobalValue where
  | option | config
  deriving DecidableEq, Repr

/-- The second loop: the value it expects, and the command once it has met one. -/
structure Scan where
  expectGlobalValue : Option GlobalValue := none
  beforeCommand : Bool := true
  invokedCommand : Word := []

/-- The options whose next argument is skipped. -/
def skipped : List Word :=
  [word "-C", word "--git-dir", word "--work-tree", word "--namespace", word "--super-prefix"]

def scanStep (world : World) (vars : Vars) (s : Scan) (argument : Word) : Script Scan :=
  match s.expectGlobalValue with
  | some value =>
    if value = .config ∧ (pattern "alias.*=*").matches argument then
      die world vars "git_config_override_forbidden" 71
    else
      pure { s with expectGlobalValue := none }
  | none =>
    if s.beforeCommand then
      if skipped.contains argument then
        pure { s with expectGlobalValue := some .option }
      else if argument = word "-c" then
        pure { s with expectGlobalValue := some .config }
      else if matchesAny [pattern "-calias.*=*", pattern "--config-env=alias.*=*"] argument then
        die world vars "git_config_override_forbidden" 71
      else if argument = word "--config-env" then
        pure { s with expectGlobalValue := some .config }
      else if (pattern "-*").matches argument then
        pure s
      else
        pure { s with invokedCommand := argument, beforeCommand := false }
    else
      pure s

/-! ## Remotes -/

/-- The groups of the list, without blanks. -/
def allowedGroups (world : World) : List Word :=
  ((fields ',' (world.get "GITLAB_ALLOWED_GROUPS")).flatMap world.paths).map fun group =>
    substituted (group.filter (· ≠ ' '))

/-- What a path must not hold, in lower case and between slashes. -/
def forbiddenPaths : List Pattern :=
  ["/../", "/./", "//", "%2f", "%2e", "\\", "?", "#"].map fun part =>
    .any :: quoted (word part) ++ [Piece.any]

def validateAllowedPath (world : World) (vars : Vars) (remotePath : Word) : Script Vars :=
  if world.get "GITLAB_ALLOWED_GROUPS" = [] then
    pure vars
  else
    let cleanPath := dropPrefix (word "/") remotePath
    let lowercasePath := substituted (cleanPath.map Char.toLower)
    if matchesAny forbiddenPaths (word "/" ++ lowercasePath ++ word "/") then
      die world vars "project_access_denied" 69
    else
      let vars := { vars with remoteProject := dropSuffix (word ".git") cleanPath }
      if (allowedGroups world).any fun group =>
          (quoted group ++ pattern "/*").matches cleanPath then
        pure vars
      else
        die world vars "project_access_denied" 69

def host : Pattern := quoted (word targetHost)

def sshPatterns : List Pattern :=
  [host ++ pattern ":*", pattern "*@" ++ host ++ pattern ":*",
    pattern "ssh://*@" ++ host ++ pattern "/*", pattern "git+ssh://" ++ host ++ pattern "/*",
    pattern "git+ssh://*@" ++ host ++ pattern "/*"]

def httpPattern : Pattern := pattern "http://" ++ host ++ pattern "/*"

def httpsPattern : Pattern := pattern "https://" ++ host ++ pattern "/*"

/-- `*://*|git@*:*`. -/
def remotePatterns : List Pattern := [pattern "*://*", pattern "git@*:*"]

def validateRemoteUrl (world : World) (vars : Vars) (remoteUrl : Word) : Script Vars :=
  if matchesAny sshPatterns remoteUrl then
    die world vars "ssh_disabled" 68
  else if httpPattern.matches remoteUrl then
    die world vars "invalid_gitlab_host" 66
  else if httpsPattern.matches remoteUrl then do
    let vars ← validateAllowedPath world vars
      (dropPrefix (word "https://" ++ word targetHost) remoteUrl)
    pure { vars with targetRemote := true }
  else if matchesAny remotePatterns remoteUrl then
    die world vars "remote_host_mismatch" 70
  else
    pure vars

/-- The fields of `$remote_list`. -/
def listed (world : World) (remoteList : Word) : List Word :=
  (lineFields remoteList).flatMap world.paths

def validateRemoteList (world : World) (vars : Vars) (remoteList : Word) : Script Vars :=
  (listed world remoteList).foldlM (validateRemoteUrl world) vars

/-- `git remote get-url --all`. -/
def remoteUrls (world : World) (context name : Word) : Word :=
  gitAnswer world context [word "remote", word "get-url", word "--all", name]

/-- `git remote get-url --all --push`. -/
def pushUrls (world : World) (context name : Word) : Word :=
  gitAnswer world context [word "remote", word "get-url", word "--all", word "--push", name]

def validateRemotes (world : World) (context : Word) (vars : Vars) (name : Word) : Script Vars := do
  let vars ← validateRemoteList world vars (remoteUrls world context name)
  validateRemoteList world vars (pushUrls world context name)

/-! ## Network operations -/

def networkOperation (command : Word) : Word :=
  if [word "clone", word "fetch", word "pull", word "push", word "ls-remote",
      word "submodule"].contains command then
    command
  else if [word "send-pack", word "http-push"].contains command then
    word "push"
  else if [word "fetch-pack", word "http-fetch", word "remote-http",
      word "remote-https"].contains command then
    word "fetch"
  else
    []

/-- The variables that no network operation may run with. -/
def overrideVariables : List String :=
  ["GIT_CONFIG", "GIT_CONFIG_COUNT", "GIT_CONFIG_PARAMETERS", "GIT_CONFIG_GLOBAL",
    "GIT_CONFIG_SYSTEM", "GIT_CONFIG_NOSYSTEM", "GIT_EXEC_PATH", "GIT_DIR", "GIT_WORK_TREE",
    "GIT_INDEX_FILE", "GIT_OBJECT_DIRECTORY", "GIT_ALTERNATE_OBJECT_DIRECTORIES",
    "GIT_COMMON_DIR", "GIT_SSH", "GIT_SSH_COMMAND", "GIT_PROXY_COMMAND", "GIT_SSL_NO_VERIFY",
    "GIT_PROTOCOL_FROM_USER", "GIT_ALLOW_PROTOCOL"]

def configOverrides : List Pattern :=
  [pattern "-c", pattern "-c?*", pattern "--config-env", pattern "--config-env=*"]

def contextOverrides : List Pattern :=
  [pattern "--git-dir", pattern "--git-dir=*", pattern "--work-tree", pattern "--work-tree=*",
    pattern "--bare", pattern "--exec-path", pattern "--exec-path=*"]

def forbidOverride (world : World) (vars : Vars) (argument : Word) : Script Unit :=
  if matchesAny configOverrides argument then
    die world vars "git_config_override_forbidden" 71
  else if matchesAny contextOverrides argument then
    die world vars "git_context_override_forbidden" 71
  else
    pure ()

/-- An argument as a URL, and as the name of a remote. -/
def validateArgument (world : World) (context : Word) (vars : Vars) (argument : Word) :
    Script Vars := do
  let vars ← validateRemoteUrl world vars argument
  validateRemotes world context vars argument

/-- The argument selects a remote. -/
def selects (world : World) (context argument : Word) : Bool :=
  matchesAny remotePatterns argument ||
    remoteUrls world context argument ++ pushUrls world context argument != []

/-- The flag is `remote_selected`. -/
def selectStep (world : World) (context : Word) (s : Vars × Bool) (argument : Word) :
    Script (Vars × Bool) := do
  let vars ← validateArgument world context s.1 argument
  pure (vars, s.2 || selects world context argument)

/-- The remote of the current branch. -/
def upstreamRemote (world : World) (context : Word) : Word :=
  let currentBranch := gitAnswer world context
    [word "symbolic-ref", word "--quiet", word "--short", word "HEAD"]
  let upstream :=
    if currentBranch = [] then []
    else gitAnswer world context
      [word "config", word "--get", word "branch." ++ currentBranch ++ word ".remote"]
  orElse upstream (word "origin")

/-- The URLs of submodules in the configuration and in the checkout. -/
def submoduleUrls (world : World) (context : Word) : Word :=
  let configured := gitQuery world context
    [word "config", word "--get-regexp", word "^submodule\\..*\\.url$"]
  let declared := gitQuery world context
    [word "config", word "-f", word ".gitmodules", word "--get-regexp",
      word "^submodule\\..*\\.url$"]
  substituted (substituted (secondFields configured) ++ word "\n" ++
    substituted (secondFields declared) ++ word "\n")

def validateSubmoduleUrl (world : World) (vars : Vars) (remoteUrl : Word) : Script Vars :=
  if matchesAny [pattern "../*", pattern "./*", pattern "/*"] remoteUrl then
    die world vars "remote_host_mismatch" 70
  else
    validateRemoteUrl world vars remoteUrl

def profilePattern (profile : Word) : Pattern :=
  .any :: quoted (word " " ++ profile ++ word " ") ++ [Piece.any]

/-- What an operation on the target host needs. -/
def authorize (world : World) (context : Word) (arguments : List Word) (originUrls : Word)
    (vars : Vars) : Script Unit := do
  let profile := world.get "HERMES_PROFILE"
  dieIf world vars (profile = []) "missing_profile_identity" 64
  dieIf world vars (!(profilePattern profile).matches (word writers ++ word readers))
    "missing_profile_identity" 64
  dieIf world vars (world.get "GITLAB_TOKEN" = []) "missing_gitlab_token" 65
  dieIf world vars (world.get "GITLAB_ALLOWED_GROUPS" = []) "project_access_denied" 69
  dieIf world vars (world.get "GITLAB_HOST" ≠ word "https://" ++ word targetHost)
    "invalid_gitlab_host" 66
  let vars ← arguments.foldlM (validateArgument world context) vars
  let vars ← validateRemoteList world vars originUrls
  let vars ← validateRemoteList world vars
    ((arguments.getLast?.map (pushUrls world context)).getD [])
  dieIf world vars
    (vars.networkOperation = word "push" ∧ ¬ (profilePattern profile).matches (word writers))
    "push_forbidden_for_role" 67

/-- How the real Git is run at last. -/
structure Execution where
  argv : List Word
  askpass : Bool
  deriving DecidableEq

/-- The options that precede a network operation. -/
def networkOptions : List Word :=
  [word "-c", word "credential.helper=", word "-c", word "http.extraHeader="]

/-- The remote that is looked at when no argument selects one, and the list of its URLs. -/
def validateUpstream (world : World) (context : Word) (s : Vars × Bool) :
    Script (Vars × Word) :=
  if !s.2 && [word "fetch", word "pull", word "push"].contains s.1.invokedCommand then do
    let upstream := upstreamRemote world context
    let vars ← validateRemotes world context s.1 upstream
    pure (vars, remoteUrls world context upstream)
  else
    pure (s.1, world.get "origin_urls")

def validateModules (world : World) (context : Word) (vars : Vars) : Script Vars := do
  let vars ← validateRemotes world context vars (word "origin")
  (listed world (submoduleUrls world context)).foldlM (validateSubmoduleUrl world) vars

/-- The remotes of submodules, and the list of the URLs of `origin`. -/
def validateSubmodules (world : World) (context : Word) (s : Vars × Word) :
    Script (Vars × Word) :=
  if s.1.invokedCommand = word "submodule" then do
    let vars ← validateModules world context s.1
    pure (vars, remoteUrls world context (word "origin"))
  else
    pure s

/-- Everything that a network operation could reach, and the list that `authorize` checks again. -/
def validateReach (world : World) (context : Word) (arguments : List Word) (vars : Vars) :
    Script (Vars × Word) := do
  let s ← arguments.foldlM (selectStep world context) (vars, false)
  let s ← validateUpstream world context s
  validateSubmodules world context s

def rewriteRules (world : World) (context : Word) : Word :=
  gitAnswer world context
    [word "config", word "--get-regexp", word "^url\\..*\\.(insteadof|pushinsteadof)$"]

def runNetwork (world : World) (context : Word) (arguments : List Word) (vars : Vars) :
    Script Execution := do
  dieIf world vars (rewriteRules world context ≠ []) "git_url_rewrite_forbidden" 71
  dieIf world vars (overrideVariables.any fun name => (world.environ name).isSome)
    "git_environment_override_forbidden" 71
  arguments.forM (forbidOverride world vars)
  let s ← validateReach world context arguments vars
  if s.1.targetRemote then do
    authorize world context arguments s.2 s.1
    pure { argv := networkOptions ++ arguments, askpass := true }
  else
    pure { argv := networkOptions ++ arguments, askpass := false }

def aliasValue (world : World) (context command : Word) : Word :=
  gitAnswer world context [word "config", word "--get", word "alias." ++ command]

/-- Before it sets them the script has the variables of its environment. -/
def initialVars (world : World) : Vars where
  networkOperation := world.get "network_operation"
  invokedCommand := []
  remoteProject := world.get "remote_project"

/-- The script. -/
def run (world : World) (arguments : List Word) : Script Execution := do
  let context := gitContext arguments
  let vars := initialVars world
  let scan ← arguments.foldlM (scanStep world vars) {}
  let command := scan.invokedCommand
  let vars := { vars with invokedCommand := command }
  dieIf world vars (command ≠ [] ∧ aliasValue world context command ≠ []) "git_alias_forbidden" 71
  let vars := { vars with networkOperation := networkOperation command }
  if vars.networkOperation ≠ [] then
    runNetwork world context arguments vars
  else
    pure { argv := arguments, askpass := false }

end HollysysController.GitWrapper
