import Reconcile.Text.CharColumns
import Reconcile.Text.Picture

/-!
# Text/Columns — how many display columns a text takes

A text takes the columns of its characters (`charColumns`), but characters that **melt** into one
shape count once: a picture with its selector, its tone or the pictures joined to it, and certain
pairs of letters.  A line is measured from its end, since what follows a character tells how wide it
is; a `Follower` is what has to be known of that.
-/

namespace Reconcile

/-! ## Letters that melt -/

/-- A letter, with what was read before it, that may melt with the letter before that. -/
inductive Melting where
  | arabicAlef
  | hebrewLamed
  | bugineseYa
  /-- The Buginese sign I, joined to a ya. -/
  | bugineseSignYa
  | tifinaghLetter
  /-- The Tifinagh joiner and a letter. -/
  | tifinaghPair
  | lisuTone
  | turkicI
  /-- A Khmer letter that can be written below the one before it. -/
  | khmerLetter
deriving DecidableEq

/-- Arabic letters of the group Alef. -/
def alefCharacters : CharSet := CharSet.ofHex "622-623 625 627 671-673 675 773-774 870-882"

/-- Arabic letters of the group Lam. -/
def lamCharacters : CharSet := CharSet.ofHex "644 6B5-6B8 76A 8A6 8C7"

/-- Letters of Tifinagh. -/
def tifinaghLetters : CharSet := CharSet.ofHex "2D31-2D65 2D6F"

/-- The first tone of a pair of Lisu tones. -/
def lisuFirstTones : CharSet := CharSet.ofHex "A4F8-A4FB"

/-- The second tone of a pair of Lisu tones. -/
def lisuSecondTones : CharSet := CharSet.ofHex "A4FC-A4FD"

/-- Khmer letters that can be written below the letter before them. -/
def khmerLetters : CharSet := CharSet.ofHex
  "1780-1782 1784-1787 1789-178C 178E-1793 1795-1798 179B-179D 17A0 17A2 17A7 17AB-17AC 17AF"

/-- Marks without a look that do not part letters that melt. -/
def unseenMarks : CharSet := CharSet.ofHex
  "34F 17B4-17B5 180B-180D 180F 200D FE00-FE0F E0100-E01EF"

/-- Quotation marks that are wide in front of the selector U+FE01. -/
def selectableQuotes : CharSet := CharSet.ofHex "2018-2019 201C-201D"

/-! ## What follows a character -/

/-- What stands behind a character, its selectors apart, as far as it tells how wide that character
is. -/
inductive Following where
  | other
  /-- A picture. -/
  | picture
  /-- A tone of skin. -/
  | tone
  /-- One letter of a flag. -/
  | region
  /-- More than one letter of flags. -/
  | regions
  /-- The joiner and a picture. -/
  | joined
  /-- The sign of a key, the joiner and a picture. -/
  | joinedKey
  /-- One letter of a flag, the joiner and a picture. -/
  | joinedRegion
  /-- Whole flags, the joiner and a picture. -/
  | joinedFlags
  /-- Flags with a letter too much, the joiner and a picture. -/
  | joinedOddRegions
  /-- The tags of a flag, the joiner and a picture: the number of letters among them, and of the
  digits in front of those. -/
  | joinedTags (letters digits : Nat)
  /-- The Kirat Rai vowel E. -/
  | vowelE
  /-- The Kirat Rai vowel AI. -/
  | vowelAi
  /-- A letter that may melt; `joined` tells that the joiner stands before it. -/
  | letter (l : Melting) (joined : Bool)
deriving DecidableEq

/-- What a character is for the one before it, without regard to what follows. -/
def Following.ofChar (c : Char) : Following :=
  let n := c.toNat
  if n < 0x5DC then .other
  else if toneCharacters.contains c then .tone
  else if regionCharacters.contains c then .region
  else if pictureCharacters.contains c then .picture
  else if n == 0x16D67 then .vowelE
  else if n == 0x16D68 then .vowelAi
  else
    match melting? with
    | some l => .letter l false
    | none => .other
where
  /-- The way in which the character may melt. -/
  melting? : Option Melting :=
    let n := c.toNat
    if alefCharacters.contains c then some .arabicAlef
    else if n == 0x5DC then some .hebrewLamed
    else if n == 0x1A10 then some .bugineseYa
    else if tifinaghLetters.contains c then some .tifinaghLetter
    else if lisuSecondTones.contains c then some .lisuTone
    else if n == 0x10C03 then some .turkicI
    else if khmerLetters.contains c then some .khmerLetter
    else none

/-- What stands behind a character, and which selectors stand in between. -/
structure Follower where
  following : Following := .other
  /-- The selector U+FE0F of a picture. -/
  asPicture : Bool := false
  /-- The selector U+FE0E of a plain look. -/
  asPlain : Bool := false
  /-- The selector U+FE01 of a wide quotation mark. -/
  asWide : Bool := false
deriving DecidableEq

namespace Follower

/-- A letter that may melt follows. -/
def isLetter (f : Follower) : Bool :=
  match f.following with
  | .letter _ _ => true
  | _ => false

/-- A picture follows that is joined. -/
def isJoined (f : Follower) : Bool := f.following = .joined || f.following = .joinedKey

/-- The selector of a picture in front.  It does not part letters that melt, and it may belong to a
picture that is joined. -/
def selectPicture (f : Follower) : Follower :=
  if f.isLetter || f.isJoined then { f with asPicture := true } else { asPicture := true }

/-- The selector of a plain look in front. -/
def selectPlain (f : Follower) : Follower :=
  if f.isLetter then { f with asPlain := true } else { asPlain := true }

/-- The selector of a wide quotation mark in front. -/
def selectWide (f : Follower) : Follower :=
  if f.isLetter then { f with asWide := true } else { asWide := true }

/-- What is left when the selector of a picture did not concern the character before it. -/
def dropPicture (f : Follower) : Follower :=
  if !f.asPicture then f
  else if f.isLetter then { f with asPicture := false }
  else {}

end Follower

/-! ## From the end to the front -/

/-- The columns that a character adds to what follows, and what follows the character before it. -/
abbrev Measure := Int × Follower

/-- What a character adds that does not melt. -/
def measureAlone (c : Char) : Measure := (charColumns c, { following := .ofChar c })

/-- Some columns, and what follows the character before. -/
def measureAs (columns : Int) (f : Following) : Measure := (columns, { following := f })

/-- What a character adds in front of a letter that it may melt with. -/
def measureLetter (c : Char) (l : Melting) (joined : Bool) : Measure :=
  let n := c.toNat
  if l ≠ .arabicAlef && n == 0x200D then measureAs 0 (.letter l true)
  else if l ≠ .arabicAlef && unseenMarks.contains c then measureAs 0 (.letter l joined)
  else match l with
    | .arabicAlef =>
      if lamCharacters.contains c then measureAs 0 .other
      else if markCharacters.contains c then measureAs 0 (.letter l joined)
      else measureAlone c
    | .hebrewLamed =>
      if joined && n == 0x5D0 then measureAs 0 .other else measureAlone c
    | .bugineseYa =>
      if joined && n == 0x1A17 then measureAs 0 (.letter .bugineseSignYa true) else measureAlone c
    | .bugineseSignYa =>
      if n == 0x1A15 then measureAs 0 .other else measureAlone c
    | .tifinaghLetter =>
      if n == 0x2D7F then measureAs 1 (.letter .tifinaghPair true)
      else if joined && tifinaghLetters.contains c then measureAs 0 .other
      else measureAlone c
    | .tifinaghPair =>
      if tifinaghLetters.contains c then measureAs (-1) .other else measureAlone c
    | .lisuTone =>
      if lisuFirstTones.contains c then measureAs 0 .other else measureAlone c
    | .turkicI =>
      if joined && n == 0x10C32 then measureAs 0 .other else measureAlone c
    | .khmerLetter =>
      if n == 0x17D2 then measureAs (-1) .other else measureAlone c

/-- What a character adds in front of tags that are joined to a picture.  The tags of a flag are
three to six letters, or three digits in front of at most four letters. -/
def measureTag (c : Char) (letters digits : Nat) : Measure :=
  let n := c.toNat
  if 0xE0061 ≤ n && n ≤ 0xE007A && digits == 0 && letters < 6 then
    measureAs 0 (.joinedTags (letters + 1) 0)
  else if 0xE0030 ≤ n && n ≤ 0xE0039 && digits < 3 && (letters ≤ 4 || 0 < digits) then
    measureAs 0 (.joinedTags letters (digits + 1))
  else if n == 0x1F3F4 && (digits == 3 || (digits == 0 && 3 ≤ letters)) then
    measureAs 0 .picture
  else measureAlone c

/-- What a character adds in front of a picture that is joined. -/
def measureJoined (c : Char) : Measure :=
  if c.toNat == 0x20E3 then measureAs 0 .joinedKey
  else if c.toNat == 0xE007F then measureAs 0 (.joinedTags 0 0)
  else if regionCharacters.contains c then measureAs 1 .joinedRegion
  else if toneCharacters.contains c then measureAs 0 .tone
  else if pictureCharacters.contains c then measureAs 0 .picture
  else measureAlone c

/-- What a character adds in front of what follows, if there is no selector in between. -/
def measureBefore (c : Char) (f : Following) : Measure :=
  let isJoiner := c.toNat == 0x200D
  let isRegion := regionCharacters.contains c
  match f with
  | .other => measureAlone c
  | .joinedKey => measureAlone c
  | .picture => if isJoiner then measureAs 0 .joined else measureAlone c
  | .tone =>
    if isJoiner then measureAs 0 .joined
    else if tonedCharacters.contains c then measureAs 0 .picture
    else measureAlone c
  | .region => if isRegion then measureAs 1 .regions else measureAlone c
  | .regions =>
    if isJoiner then measureAs 0 .joined
    else if isRegion then measureAs 1 .regions
    else measureAlone c
  | .joined => measureJoined c
  | .joinedRegion => if isRegion then measureAs (-1) .joinedFlags else measureAlone c
  | .joinedFlags =>
    if isJoiner then measureAs 0 .joined
    else if isRegion then measureAs 3 .joinedOddRegions
    else measureAlone c
  | .joinedOddRegions =>
    if isJoiner then measureAs 0 .joined
    else if isRegion then measureAs (-1) .joinedFlags
    else measureAlone c
  | .joinedTags letters digits => measureTag c letters digits
  | .vowelE =>
    if c.toNat == 0x16D63 || c.toNat == 0x16D69 then measureAs 0 .other
    else if c.toNat == 0x16D67 then measureAs 0 .vowelAi
    else if c.toNat == 0x16D68 then measureAs 1 .vowelE
    else measureAlone c
  | .vowelAi => if c.toNat == 0x16D63 then measureAs 0 .other else measureAlone c
  | .letter l joined => measureLetter c l joined

/-- What a character adds, selectors first. -/
def measure (c : Char) (f : Follower) : Measure :=
  if f.asPicture && picturableCharacters.contains c then
    measureAs (if f.isJoined then 0 else 2) .picture
  else
    let f := f.dropPicture
    if c.toNat == 0xFE0F then (0, f.selectPicture)
    else if c.toNat == 0xFE0E then (0, f.selectPlain)
    else if c.toNat == 0xFE01 then (0, f.selectWide)
    else if f.asPlain && plainableCharacters.contains c then measureAs 1 .other
    else if f.asWide && selectableQuotes.contains c then measureAs 2 .other
    else measureBefore c f.following

/-- The columns of a line of characters, and what the line is for a character before it. -/
def lineMeasure : List Char → Measure
  | [] => (0, {})
  | c :: rest =>
    let (n, follower) := lineMeasure rest
    let (k, next) := measure c follower
    (k + n, next)

/-- The columns of a text of one line. -/
def columns (s : String) : Nat := (lineMeasure s.toList).1.toNat

end Reconcile
