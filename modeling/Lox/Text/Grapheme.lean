import Lox.Text.GraphemeBreak
/-!
Extended grapheme clusters, the units a line editor deletes: a text splits into the units a
reader sees as single characters. Between two code points there is a boundary unless one of the
joining rules applies: a carriage return with a line feed; Hangul jamo into syllables; a mark, joiner or spacing
mark onto what precedes it; a prepended mark onto what follows; Indic consonants through a
linker; pictographs through a zero-width joiner; regional indicators in pairs. The rules that
look further back than one code point read a small state of the text so far, `Segmenter`.
`Grapheme.clusters` splits a list of characters; `flatten_clusters` says the clusters are the
text cut into pieces, with nothing lost or added.
-/
namespace Lox

/-- What the rules need to know of one code point. -/
structure BreakInfo where
  cls : BreakClass
  pictographic : Bool
  conjunct : ConjunctClass

/-- The break properties of a character. -/
def BreakInfo.of (c : Char) : BreakInfo :=
  ⟨BreakClass.of c.toNat, isPictographic c.toNat, ConjunctClass.of c.toNat⟩

/-- How far an Indic conjunct has got at the end of the text: nowhere, after its consonant, or
after a linker that waits for the next consonant. -/
inductive ConjunctStage where
  | none
  | consonant
  | linked
  deriving DecidableEq, Repr

/-- What the segmenter remembers of the text so far. -/
structure Segmenter where
  /-- The break class of the last code point. -/
  prev : BreakClass
  /-- The text ends in an odd number of regional indicators. -/
  oddIndicators : Bool
  /-- The text ends in a pictograph followed by extenders only. -/
  pictograph : Bool
  /-- The text ends in a pictograph, extenders and a zero-width joiner. -/
  pictographJoined : Bool
  /-- The stage of an Indic conjunct at the end of the text. -/
  conjunct : ConjunctStage

namespace Segmenter

/-- Whether a code point with these properties starts a new cluster after the text so far. -/
def breaksBefore (s : Segmenter) (i : BreakInfo) : Bool :=
  match s.prev, i.cls with
  | .cr, .lf => false
  | .control, _ | .cr, _ | .lf, _ => true
  | _, .control | _, .cr | _, .lf => true
  | .l, .l | .l, .v | .l, .lv | .l, .lvt => false
  | .lv, .v | .lv, .t | .v, .v | .v, .t => false
  | .lvt, .t | .t, .t => false
  | _, .extend | _, .zwj | _, .spacingMark => false
  | .prepend, _ => false
  | _, _ =>
    if i.conjunct = .consonant && s.conjunct = .linked then false
    else if i.pictographic && s.pictographJoined then false
    else !(i.cls = .regionalIndicator && s.oddIndicators)

/-- The stage of an Indic conjunct after one more code point. -/
def nextConjunct (stage : ConjunctStage) : ConjunctClass → ConjunctStage
  | .consonant => .consonant
  | .linker => if stage = .none then .none else .linked
  | .extend => stage
  | .none => .none

/-- The state after one more code point. -/
def push (s : Segmenter) (i : BreakInfo) : Segmenter where
  prev := i.cls
  oddIndicators := i.cls = .regionalIndicator && !s.oddIndicators
  pictograph := i.pictographic || (s.pictograph && i.cls = .extend)
  pictographJoined := s.pictograph && i.cls = .zwj
  conjunct := nextConjunct s.conjunct i.conjunct

/-- The state after a text of one code point. -/
def start (i : BreakInfo) : Segmenter :=
  push ⟨.control, false, false, false, .none⟩ i

end Segmenter

namespace Grapheme

/-- Splits the rest of a text, given the state before it, the cluster being built (reversed),
and the finished clusters (reversed). -/
def split : Segmenter → List Char → List Char → List (List Char) → List (List Char)
  | _, [], cur, done => (cur.reverse :: done).reverse
  | s, c :: cs, cur, done =>
    let i := BreakInfo.of c
    if s.breaksBefore i then split (s.push i) cs [c] (cur.reverse :: done)
    else split (s.push i) cs (c :: cur) done

/-- The extended grapheme clusters of a text, in order. -/
def clusters : List Char → List (List Char)
  | [] => []
  | c :: cs => split (Segmenter.start (BreakInfo.of c)) cs [c] []

theorem flatten_split (s : Segmenter) (cs cur : List Char) (done : List (List Char)) :
    (split s cs cur done).flatten = done.reverse.flatten ++ cur.reverse ++ cs := by
  induction cs generalizing s cur done with
  | nil => simp [split]
  | cons c cs ih =>
    simp only [split]
    split <;> simp [ih]

/-- The clusters of a text, put together again, are the text. -/
theorem flatten_clusters (cs : List Char) : (clusters cs).flatten = cs := by
  cases cs with
  | nil => rfl
  | cons c cs => simp [clusters, flatten_split]

end Grapheme

end Lox
