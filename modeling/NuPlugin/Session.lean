import NuPlugin.Install

/-!
# Sessions

A series of steps that share settings, files, an environment and a queue of replies.
-/

namespace NuPlugin

inductive Setting where
  | home (path : Path)
  | cargo (program : String)
  | host (program : String)
  | osName (name : String)

def Config.set (c : Config) : Setting → Config
  | .home home => { c with home }
  | .cargo cargo => { c with cargo }
  | .host host => { c with host }
  | .osName osName => { c with osName }

structure Session where
  config : Config
  env : Environment
  files : Files
  queue : List Reply
  runner : Runner

/-- What can be done in a session. An installation on its own takes the shared settings or those
of the environment. -/
inductive Session.Step where
  | plan (file : PackageFile)
  | install (file : PackageFile)
  | installAlone (shared : Bool) (file : PackageFile)
  | configure (setting : Setting)
  | setVariable (name : String) (value : Option String)
  | write (path : String) (content : FileContent)
  | remove (path : String)
  | enqueue (replies : List Reply)

inductive Session.Result where
  | planned (p : Plan)
  | configured (c : Config)
  | done

namespace Session

def update {α : Type} (f : String → Option α) (key : String) (value : Option α) :
    String → Option α :=
  fun other => if other = key then value else f other

/-- A step that plans or installs: only the queue of the session changes. -/
def carry (s : Session) (e : Execution Plan) : Session × Execution Result :=
  ({ s with queue := e.queue }, e.andThen fun p queue => .done (.ok (.planned p)) queue)

def quietly (s : Session) (result : Result) : Session × Execution Result :=
  (s, .done (.ok result) s.queue)

def step (s : Session) : Step → Session × Execution Result
  | .plan file => s.carry (.done (NuPlugin.plan s.config s.files file) s.queue)
  | .install file => s.carry (NuPlugin.install s.config s.files s.runner file s.queue)
  | .installAlone shared file =>
    let config := if shared then some s.config else none
    s.carry (installWith config s.env s.files s.runner file s.queue)
  | .configure setting =>
    let config := s.config.set setting
    { s with config }.quietly (.configured config)
  | .setVariable name value => { s with env := update s.env name value }.quietly .done
  | .write path content => { s with files := update s.files path (some content) }.quietly .done
  | .remove path => { s with files := update s.files path none }.quietly .done
  | .enqueue replies => { s with queue := s.queue ++ replies }.quietly .done

def run (s : Session) : List Step → List (Execution Result)
  | [] => []
  | first :: rest =>
    let (s, answer) := s.step first
    answer :: s.run rest

end Session

end NuPlugin
