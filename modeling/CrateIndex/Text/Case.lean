import CrateIndex.Text.Basic
import CrateIndex.Text.Case.Tables

/-!
# Case of texts

The full case mappings: one code point may become several, and a capital sigma at the end of a
word becomes the final small sigma.
-/

namespace CrateIndex

open Case

/-- The mapping of one code point: the table of several first, then the runs. -/
def CodePoint.mapCase (several : List (Nat × List Nat)) (runs : Runs) (c : CodePoint) : Text :=
  match several.lookup c.val with
  | some ns => ns.map .ofNat
  | none => [match runs.find? c.val with | some n => .ofNat n | none => c]

def Text.toUpper (s : Text) : Text := s.flatMap (CodePoint.mapCase upperSeveral upperRuns)

/-- The next code point that counts beside a sigma is a cased one. -/
def Text.meetsCased (s : Text) : Bool :=
  match s.dropWhile fun c => ignorable.holds c.val with
  | [] => false
  | c :: _ => cased.holds c.val

/-- Lower case of the rest of a text, given what stands before it, nearest first. A capital sigma
is final if a cased code point comes before it and none comes after. -/
def Text.toLowerAfter (before : Text) : Text → Text
  | [] => []
  | c :: s =>
    let out : Text :=
      if c.val = 0x3A3 then
        if Text.meetsCased before && !Text.meetsCased s then [.ofNat 0x3C2] else [.ofNat 0x3C3]
      else c.mapCase lowerSeveral lowerRuns
    out ++ Text.toLowerAfter (c :: before) s

def Text.toLower (s : Text) : Text := Text.toLowerAfter [] s

end CrateIndex
