import RouteAtlas.Text.Blank

/-!
# HTTP paths

A request path, a mount path and a route pattern are all compared in one canonical form: the
origin, the query and the fragment are gone, there is one leading slash, single slashes between
segments and none at the end.  The form is the rendering of a list of segments, so joining two
paths is appending their segments.

Cutting happens in a fixed order (query, fragment, surrounding blanks, origin), and each cut is
made once: text that only becomes a blank end or an origin after a later cut is kept.
-/

set_option autoImplicit false

namespace RouteAtlas.HttpPath

open RouteAtlas.Text

/-- The text after `http://host` or `https://host`; all of it when there is no such origin. -/
def withoutOrigin (s : List Char) : List Char :=
  match "http://".toList.isPrefixOf? s with
  | some rest => rest.dropWhile (· ≠ '/')
  | none =>
    match "https://".toList.isPrefixOf? s with
    | some rest => rest.dropWhile (· ≠ '/')
    | none => s

/-- The part of a URL that names a resource on its host. -/
def resource (s : List Char) : List Char :=
  withoutOrigin (trimChars (upTo '#' (upTo '?' s)))

/-- The nonempty slash-separated parts of the resource. -/
def segmentChars (s : List Char) : List (List Char) :=
  runs '/' (resource s)

/-- Segments written out: a slash before each, or a lone slash when there are none. -/
def render : List (List Char) → List Char
  | [] => ['/']
  | segs@(_ :: _) => segs.flatMap ('/' :: ·)

/-- The canonical form of a path. -/
def normalize (path : String) : String :=
  String.ofList (render (segmentChars path.toList))

/-- The segments of a path's canonical form. -/
def segments (path : String) : List String :=
  (segmentChars path.toList).map String.ofList

/-- A child path mounted under a base path. -/
def join (base child : String) : String :=
  String.ofList (render (segmentChars base.toList ++ segmentChars child.toList))

end RouteAtlas.HttpPath
