import Colloquy.Text.Mark

/-!
# Clusters

A cluster is what a reader takes for one character: a base with its marks, a syllable of Hangul
jamo, consonants joined by a linker, a pair of regional indicators, emoji joined to one picture.
`clusters` breaks a text into the extended grapheme clusters of Unicode. Main statement: the
clusters, one after the other, are the text.
-/

namespace Colloquy

/-! ## Classes of characters -/

/-- How a character takes part in clusters. -/
inductive BreakClass
  | carriageReturn
  | lineFeed
  /-- Stands alone. -/
  | control
  /-- Belongs to what is before it. -/
  | mark
  | joiner
  | regional
  /-- Belongs to what is behind it. -/
  | leading
  /-- Leading consonant of a Hangul syllable. -/
  | onset
  | vowel
  /-- Trailing consonant of a Hangul syllable. -/
  | coda
  /-- A Hangul syllable without a trailing consonant. -/
  | openSyllable
  /-- A Hangul syllable with a trailing consonant. -/
  | closedSyllable
  | other
deriving DecidableEq, Repr

/-- The code points that stand alone, the carriage return and the line feed apart. -/
def controlRanges : List (Nat × Nat) :=
  [(0x0, 0x9), (0xB, 0xC), (0xE, 0x1F), (0x7F, 0x9F), (0xAD, 0xAD), (0x61C, 0x61C),
   (0x180E, 0x180E), (0x200B, 0x200B), (0x200E, 0x200F), (0x2028, 0x202E), (0x2060, 0x206F),
   (0xFEFF, 0xFEFF), (0xFFF0, 0xFFFB), (0x13430, 0x1343F), (0x1BCA0, 0x1BCA3), (0x1D173, 0x1D17A),
   (0xE0000, 0xE001F), (0xE0080, 0xE00FF), (0xE01F0, 0xE0FFF)]

/-- The code points that belong to what is behind them. -/
def leadingRanges : List (Nat × Nat) :=
  [(0x600, 0x605), (0x6DD, 0x6DD), (0x70F, 0x70F), (0x890, 0x891), (0x8E2, 0x8E2), (0xD4E, 0xD4E),
   (0x110BD, 0x110BD), (0x110CD, 0x110CD), (0x111C2, 0x111C3), (0x1193F, 0x1193F),
   (0x11941, 0x11941), (0x11A3A, 0x11A3A), (0x11A84, 0x11A89), (0x11D46, 0x11D46),
   (0x11F02, 0x11F02)]

/-- The code points of pictographs. -/
def pictographRanges : List (Nat × Nat) :=
  [(0xA9, 0xA9), (0xAE, 0xAE), (0x203C, 0x203C), (0x2049, 0x2049), (0x2122, 0x2122),
   (0x2139, 0x2139), (0x2194, 0x2199), (0x21A9, 0x21AA), (0x231A, 0x231B), (0x2328, 0x2328),
   (0x2388, 0x2388), (0x23CF, 0x23CF), (0x23E9, 0x23F3), (0x23F8, 0x23FA), (0x24C2, 0x24C2),
   (0x25AA, 0x25AB), (0x25B6, 0x25B6), (0x25C0, 0x25C0), (0x25FB, 0x25FE), (0x2600, 0x2605),
   (0x2607, 0x2612), (0x2614, 0x2685), (0x2690, 0x2705), (0x2708, 0x2712), (0x2714, 0x2714),
   (0x2716, 0x2716), (0x271D, 0x271D), (0x2721, 0x2721), (0x2728, 0x2728), (0x2733, 0x2734),
   (0x2744, 0x2744), (0x2747, 0x2747), (0x274C, 0x274C), (0x274E, 0x274E), (0x2753, 0x2755),
   (0x2757, 0x2757), (0x2763, 0x2767), (0x2795, 0x2797), (0x27A1, 0x27A1), (0x27B0, 0x27B0),
   (0x27BF, 0x27BF), (0x2934, 0x2935), (0x2B05, 0x2B07), (0x2B1B, 0x2B1C), (0x2B50, 0x2B50),
   (0x2B55, 0x2B55), (0x3030, 0x3030), (0x303D, 0x303D), (0x3297, 0x3297), (0x3299, 0x3299),
   (0x1F000, 0x1F0FF), (0x1F10D, 0x1F10F), (0x1F12F, 0x1F12F), (0x1F16C, 0x1F171),
   (0x1F17E, 0x1F17F), (0x1F18E, 0x1F18E), (0x1F191, 0x1F19A), (0x1F1AD, 0x1F1E5),
   (0x1F201, 0x1F20F), (0x1F21A, 0x1F21A), (0x1F22F, 0x1F22F), (0x1F232, 0x1F23A),
   (0x1F23C, 0x1F23F), (0x1F249, 0x1F3FA), (0x1F400, 0x1F53D), (0x1F546, 0x1F64F),
   (0x1F680, 0x1F6FF), (0x1F774, 0x1F77F), (0x1F7D5, 0x1F7FF), (0x1F80C, 0x1F80F),
   (0x1F848, 0x1F84F), (0x1F85A, 0x1F85F), (0x1F888, 0x1F88F), (0x1F8AE, 0x1F8FF),
   (0x1F90C, 0x1F93A), (0x1F93C, 0x1F945), (0x1F947, 0x1FAFF), (0x1FC00, 0x1FFFD)]

/-- The consonants that linkers join. -/
def linkedConsonantRanges : List (Nat × Nat) :=
  [(0x915, 0x939), (0x958, 0x95F), (0x978, 0x97F), (0x995, 0x9A8), (0x9AA, 0x9B0), (0x9B2, 0x9B2),
   (0x9B6, 0x9B9), (0x9DC, 0x9DD), (0x9DF, 0x9DF), (0x9F0, 0x9F1), (0xA95, 0xAA8), (0xAAA, 0xAB0),
   (0xAB2, 0xAB3), (0xAB5, 0xAB9), (0xAF9, 0xAF9), (0xB15, 0xB28), (0xB2A, 0xB30), (0xB32, 0xB33),
   (0xB35, 0xB39), (0xB5C, 0xB5D), (0xB5F, 0xB5F), (0xB71, 0xB71), (0xC15, 0xC28), (0xC2A, 0xC39),
   (0xC58, 0xC5A), (0xD15, 0xD3A)]

/-- The signs that join the consonants around them. -/
def linkerRanges : List (Nat × Nat) :=
  [(0x94D, 0x94D), (0x9CD, 0x9CD), (0xACD, 0xACD), (0xB4D, 0xB4D), (0xC4D, 0xC4D), (0xD4D, 0xD4D)]

/-- Whether a character is a pictograph. -/
def isPictograph (c : Char) : Bool := 0xA9 ≤ c.toNat && inRanges pictographRanges c

/-- Whether a character is a consonant that linkers join. -/
def isLinkedConsonant (c : Char) : Bool := 0x300 ≤ c.toNat && inRanges linkedConsonantRanges c

/-- Whether a character joins the consonants around it. -/
def isLinker (c : Char) : Bool := inRanges linkerRanges c

/-- The class of a Hangul syllable or of a part of one. -/
def hangulClass? (c : Char) : Option BreakClass :=
  if inRanges [(0xAC00, 0xD7A3)] c then
    some (if (c.toNat - 0xAC00) % 28 = 0 then .openSyllable else .closedSyllable)
  else if inRanges [(0x1100, 0x115F), (0xA960, 0xA97C)] c then some .onset
  else if inRanges [(0x1160, 0x11A7), (0xD7B0, 0xD7C6)] c then some .vowel
  else if inRanges [(0x11A8, 0x11FF), (0xD7CB, 0xD7FB)] c then some .coda
  else none

/-- The class of a character. -/
def breakClass (c : Char) : BreakClass :=
  if c = '\r' then .carriageReturn
  else if c = '\n' then .lineFeed
  else if c = '\u200d' then .joiner
  else if inRanges controlRanges c then .control
  else if isMark c || isSpacingMark c || isSkinTone c then .mark
  else if inRanges [(0x1F1E6, 0x1F1FF)] c then .regional
  else if inRanges leadingRanges c then .leading
  else (hangulClass? c).getD .other

/-! ## Clusters -/

/-- What decides whether the cluster read so far goes on. -/
structure ClusterEnd where
  /-- The class of its last character. -/
  last : BreakClass
  /-- Whether it ends in a regional indicator that waits for its partner. -/
  halfPair : Bool
  /-- Whether it ends in a pictograph with its marks. -/
  pictograph : Bool
  /-- Whether it ends in a joiner right behind these. -/
  joinedPictograph : Bool
  /-- Whether it ends in a consonant with its marks. -/
  consonant : Bool
  /-- Whether there is a linker among these marks. -/
  linked : Bool

namespace ClusterEnd

/-- The end of a cluster of one character. -/
def ofChar (c : Char) : ClusterEnd where
  last := breakClass c
  halfPair := breakClass c = .regional
  pictograph := isPictograph c
  joinedPictograph := false
  consonant := isLinkedConsonant c
  linked := false

/-- Whether a character may stand among the marks of a consonant. -/
def keepsConsonant (c : Char) : Bool := (isMark c && c ≠ '\u200c') || isSkinTone c || c = '\u200d'

/-- The end of a cluster after one more character. -/
def next (e : ClusterEnd) (c : Char) : ClusterEnd where
  last := breakClass c
  halfPair := breakClass c = .regional && !e.halfPair
  pictograph := isPictograph c || (e.pictograph && (isMark c || isSkinTone c))
  joinedPictograph := e.pictograph && c = '\u200d'
  consonant := isLinkedConsonant c || (e.consonant && keepsConsonant c)
  linked := e.consonant && keepsConsonant c && (e.linked || isLinker c)

/-- Whether a character goes on with the cluster. -/
def joins (e : ClusterEnd) (c : Char) : Bool :=
  match e.last, breakClass c with
  | .carriageReturn, .lineFeed => true
  | .carriageReturn, _ | .lineFeed, _ | .control, _ => false
  | _, .carriageReturn | _, .lineFeed | _, .control => false
  | _, .mark | _, .joiner => true
  | .leading, _ => true
  | .onset, .onset | .onset, .vowel | .onset, .openSyllable | .onset, .closedSyllable => true
  | .openSyllable, .vowel | .openSyllable, .coda | .vowel, .vowel | .vowel, .coda => true
  | .closedSyllable, .coda | .coda, .coda => true
  | _, .regional => e.halfPair
  | _, .other => (e.joinedPictograph && isPictograph c) || (e.linked && isLinkedConsonant c)
  | _, _ => false

end ClusterEnd

/-- The clusters of a text behind the beginning of one, which is given last character first. -/
def clustersAfter (e : ClusterEnd) (begun : List Char) : List Char → List (List Char)
  | [] => [begun.reverse]
  | c :: rest =>
    if e.joins c then clustersAfter (e.next c) (c :: begun) rest
    else begun.reverse :: clustersAfter (.ofChar c) [c] rest

/-- The clusters of a text. -/
def clusters : List Char → List (List Char)
  | [] => []
  | c :: rest => clustersAfter (.ofChar c) [c] rest

theorem flatten_clustersAfter (e : ClusterEnd) (begun cs : List Char) :
    (clustersAfter e begun cs).flatten = begun.reverse ++ cs := by
  induction cs generalizing e begun with
  | nil => simp [clustersAfter]
  | cons c rest ih =>
    unfold clustersAfter
    split <;> simp [ih]

/-- Breaking a text into clusters keeps all of it. -/
theorem flatten_clusters (cs : List Char) : (clusters cs).flatten = cs := by
  cases cs with
  | nil => rfl
  | cons c rest => simp [clusters, flatten_clustersAfter]

end Colloquy
