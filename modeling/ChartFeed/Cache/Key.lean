import ChartFeed.Json.Canonical

/-!
# Cache keys

Keys are made of fixed words, texts of the caller and digests of canonical JSON.

* `CacheKey.chart` and `CacheKey.memo` are the keys of chart payloads and of memoised results; both
  start with the version of the stored forms;
* `CacheKey.ofValue` is a digest behind a text of the caller;
* `CacheKey.view` is the key of a rendered view: its path and a digest of its arguments.
-/

set_option autoImplicit false

namespace ChartFeed.CacheKey

/-- The version of the stored forms; a new version leaves all old entries unread. -/
def version : String := "v1"

/-- The key of a chart payload. -/
def chart (digest : String) : String := version ++ ":chart:" ++ digest

/-- The key of a memoised result. -/
def memo (space digest : String) : String := version ++ ":memo:" ++ space ++ ":" ++ digest

/-- A text followed by the digest of a value. -/
def ofValue (v : Json) (lead : String) : String := lead ++ v.digest

/-- Drops the slashes at both ends. -/
def trimSlashes (cs : List Char) : List Char :=
  ((cs.dropWhile (· == '/')).reverse.dropWhile (· == '/')).reverse

/-- The key of a rendered view. -/
def view (path : String) (args : Dict Json) : String :=
  "view/" ++ String.ofList (trimSlashes path.toList) ++ "/" ++ (Json.obj args).digest

end ChartFeed.CacheKey
