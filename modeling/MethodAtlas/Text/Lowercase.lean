import MethodAtlas.Text.Basic
import MethodAtlas.Text.CaseRanges

/-!
# Lower case

The lower case of a text, character by character. Two letters are special: the capital `I` with a
dot becomes two characters, and a capital sigma at the end of a word becomes the final sigma. A
sigma ends a word if a letter with case comes before it and none after it, where characters that
are ignored for case do not count.
-/
namespace MethodAtlas.Text

/-- Whether a character that is not ignored for case has case. -/
def isCased (c : Char) : Bool := inRanges casedRanges c

/-- Whether a character is ignored where the case of neighbours counts. -/
def isCaseIgnorable (c : Char) : Bool := inRanges caseIgnorableRanges c

namespace CaseRun

/-- Whether a run holds a code point. -/
def covers (r : CaseRun) (n : Nat) : Bool :=
  r.first ≤ n && n ≤ r.last && (n - r.first) % r.stride == 0

/-- The lower case of a code point of the run. -/
def apply (r : CaseRun) (n : Nat) : Nat := n - r.first + r.lower

end CaseRun

/-- The lower case of a character where its neighbours do not matter. -/
def lowerChar (c : Char) : List Char :=
  if c.toNat < 0x80 then [c.toLower]
  else if c = '\u0130' then ['i', '\u0307']
  else
    match lowerRuns.find? fun r => r.covers c.toNat with
    | some r => [Char.ofNat (r.apply c.toNat)]
    | none => [c]

/-- Whether the first character that is not ignored for case has case. -/
def startsCased (cs : List Char) : Bool :=
  match cs.dropWhile isCaseIgnorable with
  | [] => false
  | c :: _ => isCased c

/-- The lower case of the characters after those in `before`, the nearest of which comes first. -/
def lowerAfter (before : List Char) : List Char → List Char
  | [] => []
  | c :: rest =>
    let lower :=
      if c = '\u03A3' then
        if startsCased before && !startsCased rest then ['\u03C2'] else ['\u03C3']
      else lowerChar c
    lower ++ lowerAfter (c :: before) rest

/-- The lower case of a text. -/
def lowercase (s : String) : String := String.ofList (lowerAfter [] s.toList)

end MethodAtlas.Text
