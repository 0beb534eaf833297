import MetricWatch.Url.Parse

namespace MetricWatch.Url

/-! References. A text that is read as seen from a URL may leave out what is the same
there: the scheme, the host, and the path up to its last slash. -/

/-- The same page, with its query unless there is another one. -/
def onPage (base : Url) (tailed : Tailed) : Url :=
  let asked := assemble base.scheme base.authority base.path tailed
  { asked with query := asked.query.or base.query }

/-- What is behind the last slash of a path is left, and the text is followed from there. -/
def segmentsFrom (kind : SchemeKind) (segments : List (List Char)) (text : List Char) :
    List (List Char) :=
  (addSegments addSegment segments.dropLast.reverse
    (partsBetween (separatesSegments kind) text)).reverse

section Names

variable [NameMapping]

/-- One slash in front leads to the top of the same host, and two lead to another host. -/
def fromPlace (base : Url) (segments : List (List Char)) (tailed : Tailed) :
    Except Fault Url :=
  let kind := schemeKind base.scheme
  let front := withoutIgnored tailed.front
  let leadsTo := fun segments => assemble base.scheme base.authority (.segments segments) tailed
  match front with
  | [] => .ok (base.onPage tailed)
  | first :: rest =>
      if !separatesSegments kind first then .ok (leadsTo (segmentsFrom kind segments front))
      else if rest.head?.any (separatesSegments kind) then
        if kind.isSpecial then readSpecial base.scheme tailed else readOrdinary base.scheme tailed
      else .ok (leadsTo (readPath kind front))

def fromFile (base : Url) (segments : List (List Char)) (tailed : Tailed) :
    Except Fault Url :=
  let host := (base.authority.map (·.host)).getD .empty
  match behindSlash? tailed.front with
  | some behind =>
      if (behindSlash? behind).isSome then readFile tailed
      else .ok (fileUrl host (.readBelowDrive segments behind) tailed)
  | none =>
      if (withoutIgnored tailed.front).isEmpty then .ok (base.onPage tailed)
      else .ok (fileUrl host (.readBeside segments tailed.front) tailed)

/-- Nothing but a fragment can be looked at from a URL in which no segments are told
apart. -/
def fromOpaque (base : Url) (tailed : Tailed) : Except Fault Url :=
  if (withoutIgnored tailed.front).isEmpty && tailed.query.isNone && tailed.fragment.isSome then
    .ok (base.onPage tailed)
  else .error .relativeToOpaque

def follow (base : Url) (text : List Char) : Except Fault Url :=
  let tailed := splitTail text
  match base.path with
  | .opaqueText _ => base.fromOpaque tailed
  | .segments segments =>
      match schemeKind base.scheme with
      | .file => base.fromFile segments tailed
      | .special | .ordinary => base.fromPlace segments tailed

/-- A scheme with rules of its own may be repeated in a reference. -/
def repeatsScheme (base : Url) (scheme : List Char) : Bool :=
  (schemeKind scheme).isSpecial && scheme = base.scheme

/-- The URL that a text spells as seen from another one. -/
def resolve (base : Url) (text : List Char) : Except Fault Url :=
  let trimmed := trimEdges text
  match splitScheme? trimmed with
  | none => base.follow trimmed
  | some (scheme, rest) => if base.repeatsScheme scheme then base.follow rest else parse text

end Names

example : ((do (← parse "http://h/a/b/c?x#y".toList).resolve "../d?z".toList).toOption).map
    toText = some "http://h/a/d?z" := by decide +kernel

end MetricWatch.Url
