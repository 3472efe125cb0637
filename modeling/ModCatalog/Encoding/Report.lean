import ModCatalog.Encoding.Catalog
import ModCatalog.Indexing.Batch
import ModCatalog.Progress
import ModCatalog.Resolution

/-!
# Reports as JSON

The JSON form of the report of a pass and of its progress.
-/

namespace ModCatalog

open Document

def BatchSettings.toJson (settings : BatchSettings) : Json :=
  .ofMembers [("download_threads", .ofNat settings.downloadThreads),
    ("cleanup", .text settings.cleanup.text), ("max_pages", .ofNat settings.maxPages),
    ("keep_caches", .bool settings.keepsCaches), ("cache_dir", .text settings.cacheDirectory),
    ("game_version", .text settings.gameVersion)]

def Resolution.toJson : Resolution → Json
  | .known id => .ofMembers [("known", .ofNat id)]
  | .index id created => .ofMembers [("index", .ofNat id), ("created", .bool created)]
  | .outdated id => .ofMembers [("outdated", .ofNat id)]
  | .unindexable => .text "unindexable"

def FailedItem.toJson (failed : FailedItem) : Json :=
  .ofMembers [("item", .text failed.item), ("error", .text failed.fault.message),
    ("retryable", .bool failed.fault.isRetryable)]

def BatchReport.members (report : BatchReport) : List (String × Json) :=
  [("platform", .text report.platform), ("game_version", .text report.gameVersion),
    ("pages", .ofNat report.pages), ("files_seen", .ofNat report.filesSeen),
    ("already_seen", .ofNat report.alreadySeen),
    ("downloads_failed", .ofNat report.downloadsFailed), ("not_mods", .ofNat report.notMods),
    ("candidates", .ofNat report.candidates), ("indexed", .ofNat report.indexed),
    ("linked", .ofNat report.linked), ("skipped", .ofNat report.skipped),
    ("failed", .ofList FailedItem.toJson report.failed), ("truncated", .bool report.truncated),
    ("purged", .ofNat report.purged)]

def Progress.toJson (progress : Progress) : Json :=
  .ofMembers [("expected", .ofNat progress.expected), ("indexed", .ofNat progress.indexed),
    ("stored", .ofNat progress.stored), ("skipped", .ofNat progress.skipped),
    ("failed", .ofNat progress.failed)]

end ModCatalog
