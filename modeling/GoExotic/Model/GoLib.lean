/-
Module: GoExotic.Model.GoLib
Purpose: The parts of Go's standard library whose exact behaviour the repository leaves open, as one
  parameter of the model: the parser of package net/url, float64 arithmetic and `sort.Slice`. Results
  are proved for every such library; `GoLib.plain` is one to evaluate the model with.
Trusted boundary: net/url, float64 and package sort
Main exports: Url, GoLib, splitUrl, GoLib.plain
-/
import GoExotic.Model.Go
import GoExotic.Theory.Sorting

namespace GoExotic

/-- A parsed URL, with the fields this repository reads. -/
structure Url where
  scheme : String
  host : String
  path : String
  rawQuery : String
deriving DecidableEq, Repr

/-- The library parameter; a URL that does not parse is `none`. -/
structure GoLib where
  urlParse : String → Option Url
  float : FloatOps
  sort : Sorting.SortSlice

/-- The usual splitting rule for addresses: `scheme://host`, then the path up to the first `?` or `#`,
then the query up to `#`. An address without `://` is a path. -/
def splitUrl (raw : String) : Option Url :=
  match raw.toList.span fun c => c != ':' with
  | (scheme, ':' :: '/' :: '/' :: authority) =>
      let (host, rest) := authority.span fun c => c != '/' && c != '?' && c != '#'
      let (path, rest) := rest.span fun c => c != '?' && c != '#'
      let query := match rest with
        | '?' :: query => query.takeWhile fun c => c != '#'
        | _ => []
      some ⟨String.ofList scheme, String.ofList host, String.ofList path, String.ofList query⟩
  | _ => some ⟨"", "", raw, ""⟩

example : splitUrl "http://h:1/a?b#c" = some ⟨"http", "h:1", "/a", "b"⟩ := by decide

/-- The usual URL splitting, exact arithmetic and insertion sort. -/
def GoLib.plain : GoLib where
  urlParse := splitUrl
  float := FloatOps.exact
  sort := Sorting.SortSlice.insertion

end GoExotic
