import ModCatalog.CommandLine.Settings
import ModCatalog.Document.Json.Value

/-!
# Commands as JSON

The JSON form of a command and of the settings that it is carried out with.
-/

namespace ModCatalog.CommandLine

open Document

/-- The members of the JSON form of a command without its name. -/
def Command.members : Command → List (String × Json)
  | .index root gameVersion platform pageSize maxPages fullCleanup =>
      [("root", .text root), ("game_version", .text gameVersion), ("platform", .text platform),
        ("page_size", .ofNat pageSize), ("max_pages", .ofOption .ofNat maxPages),
        ("full_cleanup", .bool fullCleanup)]
  | .inspect jarPath raw noRefs =>
      [("jar_path", .text jarPath), ("raw", .bool raw), ("no_refs", .bool noRefs)]
  | .showMod id => [("mod_id", .ofNat id)]
  | .stats | .schema | .clear => []

def Command.verb : Command → Verb
  | .index .. => .index
  | .inspect .. => .inspect
  | .showMod _ => .showMod
  | .stats => .stats
  | .schema => .schema
  | .clear => .clear

def Command.toJson (command : Command) : Json :=
  .ofMembers (("name", .text command.verb.name) :: command.members)

def Invocation.toJson (failure : SettingFailure → Json) (invocation : Invocation)
    (env : Environment) : Json :=
  let options := invocation.options
  let orFailure : {α : Type} → (α → Json) → Except SettingFailure α → Json :=
    fun encode value =>
      match value with
      | .ok value => encode value
      | .error cause => failure cause
  .ofMembers [("command", invocation.command.toJson),
    ("db", orFailure .text (options.storePath env)),
    ("lock", orFailure (fun path => .text (lockPath path)) (options.storePath env)),
    ("cache", orFailure .text (options.cachePath env)),
    ("threads", orFailure .ofNat (options.threadCount env)),
    ("download_threads", orFailure .ofNat (options.downloadCount env)),
    ("keep_caches", .bool env.keepsCaches)]

end ModCatalog.CommandLine
