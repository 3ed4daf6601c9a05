import TittyBackend.Lib.Digits

/-!
# UUIDs and their texts

`Uuid::to_string` prints five groups of lower-case hexadecimal digits; `Uuid::parse_str` reads
that form, the same without hyphens, and the same in braces or after `urn:uuid:`.
-/

namespace TittyBackend

open Numerals

structure Uuid where
  bits : BitVec 128
  deriving DecidableEq

namespace Uuid

/-- The five groups, each after the first behind a hyphen. -/
def hyphenate (ds : Text) : Text :=
  ds.take 8 ++ '-' :: ((ds.drop 8).take 4 ++ '-' :: ((ds.drop 12).take 4 ++
    '-' :: ((ds.drop 16).take 4 ++ '-' :: ds.drop 20)))

/-- The characters of the five groups, without the four between them. -/
def groups (s : Text) : Text :=
  s.take 8 ++ ((s.drop 9).take 4 ++ ((s.drop 14).take 4 ++ ((s.drop 19).take 4 ++ s.drop 24)))

def toText (u : Uuid) : Text := hyphenate (hex.write 32 u.bits.toNat)

def parseSimple (s : Text) : Option Uuid := (hex.read s).map fun n => ⟨BitVec.ofNat 128 n⟩

def parseHyphenated (s : Text) : Option Uuid :=
  if s[8]? = some '-' ∧ s[13]? = some '-' ∧ s[18]? = some '-' ∧ s[23]? = some '-' then
    parseSimple (groups s)
  else none

def parse (s : Text) : Option Uuid :=
  if s.length = 32 then parseSimple s
  else if s.length = 36 then parseHyphenated s
  else if s.length = 38 ∧ s.head? = some '{' ∧ s.getLast? = some '}' then
    parseHyphenated (s.tail.take 36)
  else if s.length = 45 ∧ s.take 9 = "urn:uuid:".toList then parseHyphenated (s.drop 9)
  else none

lemma groups_hyphenate {ds : Text} (h : ds.length = 32) : groups (hyphenate ds) = ds ∧
    (hyphenate ds)[8]? = some '-' ∧ (hyphenate ds)[13]? = some '-' ∧
      (hyphenate ds)[18]? = some '-' ∧ (hyphenate ds)[23]? = some '-' := by
  have hsplit : ∃ a b c d e : Text, ds = a ++ (b ++ (c ++ (d ++ e))) ∧ a.length = 8 ∧
      b.length = 4 ∧ c.length = 4 ∧ d.length = 4 := by
    refine ⟨ds.take 8, (ds.drop 8).take 4, (ds.drop 12).take 4, (ds.drop 16).take 4, ds.drop 20,
      ?_, ?_, ?_, ?_, ?_⟩
    · rw [show ds.drop 20 = (ds.drop 16).drop 4 by simp, List.take_append_drop,
        show ds.drop 16 = (ds.drop 12).drop 4 by simp, List.take_append_drop,
        show ds.drop 12 = (ds.drop 8).drop 4 by simp, List.take_append_drop,
        List.take_append_drop]
    all_goals simp [h]
  obtain ⟨a, b, c, d, e, rfl, ha, hb, hc, hd⟩ := hsplit
  have hy : hyphenate (a ++ (b ++ (c ++ (d ++ e)))) =
      a ++ '-' :: (b ++ '-' :: (c ++ '-' :: (d ++ '-' :: e))) := by
    simp (disch := omega) [hyphenate, List.drop_append, List.drop_eq_nil_of_le, ha, hb, hc]
  rw [hy]
  refine ⟨?_, ?_, ?_, ?_, ?_⟩
  · simp (disch := omega) [groups, List.drop_append, List.drop_eq_nil_of_le, ha, hb, hc, hd]
  all_goals simp [List.getElem?_append, ha, hb, hc, hd]

lemma length_toText (u : Uuid) : u.toText.length = 36 := by
  simp [toText, hyphenate]

theorem parse_toText (u : Uuid) : parse u.toText = some u := by
  obtain ⟨hg, hh⟩ := groups_hyphenate (hex.length_write 32 u.bits.toNat)
  rw [parse, if_neg (by simp [length_toText]), if_pos u.length_toText, toText, parseHyphenated,
    if_pos hh, hg, parseSimple, hex.read_write (by decide) u.bits.isLt]
  simp

lemma toText_inj {u v : Uuid} : u.toText = v.toText ↔ u = v := by
  refine ⟨fun h => ?_, fun h => h ▸ rfl⟩
  have hp := congrArg parse h
  rw [parse_toText, parse_toText] at hp
  exact Option.some.inj hp

example : toText ⟨0x67e5504410b1426f9247bb680e5fe0c8⟩ =
    "67e55044-10b1-426f-9247-bb680e5fe0c8".toList := by decide
example : parse "{67E55044-10B1-426F-9247-BB680E5FE0C8}".toList =
    some ⟨0x67e5504410b1426f9247bb680e5fe0c8⟩ := by decide

end Uuid

end TittyBackend
