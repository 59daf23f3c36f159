import DeferredOpen.Log

/-!
# Which records are kept

A filter is spelled as directives between commas. A directive is a level for all records, the
beginning of the names of some sources, or both with an equals sign between; of the directives
that a source falls under, the one with the longest name counts. What stands after a slash has to
occur in the message. Directives without a meaning are passed over, and without any directive
only errors are kept.
-/

namespace DeferredOpen.Log

/-- How much of the records of some sources is kept. -/
structure Directive where
  /-- How the names of the sources begin. -/
  sources : String := ""
  threshold : Threshold
  deriving DecidableEq, Repr

structure Filter where
  directives : List Directive
  /-- What has to occur in a message. -/
  wanted : String := ""
  deriving DecidableEq, Repr

namespace Filter

def everything : Threshold := some .trace

def directive? (text : String) : Option Directive :=
  match text.splitOn "=" with
  | [word] =>
    match Threshold.ofWord? word with
    | some threshold => some { threshold }
    | none => some { sources := word, threshold := everything }
  | [sources, word] =>
    let word := word.trimAscii.toString
    if word = "" then some { sources, threshold := everything }
    else (Threshold.ofWord? word).map fun threshold => { sources, threshold }
  | _ => none

def directivesOf (text : String) : List Directive :=
  let words := (text.splitOn ",").map fun word => word.trimAscii.toString
  (words.filter (· ≠ "")).filterMap directive?

def ofText (text : String) : Filter :=
  let (listed, wanted) := match text.splitOn "/" with
    | [listed] => (directivesOf listed, "")
    | [listed, wanted] => (directivesOf listed, wanted)
    | _ => ([], "")
  { directives := if listed.isEmpty then [{ threshold := some .error }] else listed, wanted }

/-- The directive that counts for a source: the longest, and of two alike the later. -/
def directiveFor? (f : Filter) (source : String) : Option Directive :=
  f.directives.foldl
    (fun best d =>
      if source.startsWith d.sources &&
          best.all fun b => b.sources.utf8ByteSize ≤ d.sources.utf8ByteSize then some d
      else best) none

def occurs (part text : String) : Bool := part = "" || 1 < (text.splitOn part).length

def keeps (f : Filter) (w : Wording) (r : Record) : Bool :=
  (f.directiveFor? r.source).any (fun d => d.threshold.keeps r.level) &&
    occurs f.wanted (r.message w)

end Filter

end DeferredOpen.Log
