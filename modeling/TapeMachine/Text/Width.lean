import TapeMachine.Text.Mark
import TapeMachine.Text.Picture

/-!
# Width

How many columns of a screen a character takes, and how many a text. Characters that are drawn as
one, such as a picture and its selector or the letters of a ligature, take fewer columns than they
do one by one.
-/

namespace TapeMachine.Text

/-! ## Characters -/

/-- Characters that are not marks and take no column either: those that a reader is not to see, the
later parts of Hangul syllables, and signs that are drawn over what follows them. -/
def hiddenRanges : CharRanges :=
  [(0x0605, 0x0605), (0x061C, 0x061C), (0x070F, 0x070F), (0x0890, 0x0891), (0x08E2, 0x08E2),
    (0x0CC0, 0x0CC0), (0x0CC7, 0x0CC8), (0x0CCA, 0x0CCB), (0x0D4E, 0x0D4E), (0x1160, 0x11FF),
    (0x180E, 0x180E), (0x1B3B, 0x1B3B), (0x1B3D, 0x1B3D), (0x1B43, 0x1B43), (0x200B, 0x200B),
    (0x200D, 0x200F), (0x202A, 0x202E), (0x2060, 0x206F), (0x3164, 0x3164), (0xA8FA, 0xA8FA),
    (0xD7B0, 0xD7C6), (0xD7CB, 0xD7FB), (0xFEFF, 0xFEFF), (0xFFA0, 0xFFA0), (0xFFF0, 0xFFF8),
    (0x111C2, 0x111C3), (0x1193F, 0x1193F), (0x11941, 0x11941), (0x11A3A, 0x11A3A),
    (0x11A84, 0x11A89), (0x11D46, 0x11D46), (0x11F02, 0x11F02), (0x1BCA0, 0x1BCA3),
    (0x1D173, 0x1D17A), (0xE0000, 0xE001F), (0xE0080, 0xE00FF), (0xE01F0, 0xE0FFF)]

/-- The columns that a character takes on its own. Below U+0300 only the soft hyphen has none, and
control characters have one like any other. -/
def columns (c : Char) : Nat :=
  if c.toNat < 0x300 then if c = '\u00AD' then 0 else 1
  else
    match c with
    | '\u115F' | '\u17A4' => 2
    | '\u17D8' => 3
    | '\u2D7F' => 1
    | _ => if isMark c || hiddenRanges.has c then 0 else if isWide c then 2 else 1

/-! ## Ligatures -/

/-- A letter that ends a ligature, or what of a ligature is read when it is read backwards. -/
inductive LigatureEnd where
  | alef
  | lamed
  | coengLetter
  | ya
  | vowelYa
  | tone
  | turkicI
  | consonant
  | joinedConsonant
deriving DecidableEq, Repr

/-- Arabic letters of the joining group Alef. -/
def alefRanges : CharRanges :=
  [(0x0622, 0x0623), (0x0625, 0x0625), (0x0627, 0x0627), (0x0671, 0x0673), (0x0675, 0x0675),
    (0x0773, 0x0774), (0x0870, 0x0882)]

/-- Arabic letters of the joining group Lam. -/
def lamRanges : CharRanges :=
  [(0x0644, 0x0644), (0x06B5, 0x06B8), (0x076A, 0x076A), (0x08A6, 0x08A6), (0x08C7, 0x08C7)]

/-- Characters of no column that keep two Arabic letters apart. -/
def separatorRanges : CharRanges :=
  [(0x0605, 0x0605), (0x0890, 0x0891), (0x08E2, 0x08E2), (0x09BE, 0x09BE), (0x09D7, 0x09D7),
    (0x0B3E, 0x0B3E), (0x0B57, 0x0B57), (0x0BBE, 0x0BBE), (0x0BD7, 0x0BD7), (0x0CC0, 0x0CC0),
    (0x0CC2, 0x0CC2), (0x0CC7, 0x0CC8), (0x0CCA, 0x0CCB), (0x0CD5, 0x0CD6), (0x0D3E, 0x0D3E),
    (0x0D4E, 0x0D4E), (0x0D57, 0x0D57), (0x0DCF, 0x0DCF), (0x0DDF, 0x0DDF), (0x1160, 0x11FF),
    (0x180E, 0x180E), (0x1B35, 0x1B35), (0x1B3B, 0x1B3B), (0x1B3D, 0x1B3D), (0x1B43, 0x1B43),
    (0x200C, 0x200D), (0x2065, 0x2069), (0x302E, 0x302F), (0x3164, 0x3164), (0xA8FA, 0xA8FA),
    (0xD7B0, 0xD7C6), (0xD7CB, 0xD7FB), (0xFF9E, 0xFFA0), (0xFFF0, 0xFFF8), (0x111C2, 0x111C3),
    (0x1133E, 0x1133E), (0x11357, 0x11357), (0x114B0, 0x114B0), (0x114BD, 0x114BD),
    (0x115AF, 0x115AF), (0x11930, 0x11930), (0x1193F, 0x1193F), (0x11941, 0x11941),
    (0x11A3A, 0x11A3A), (0x11A84, 0x11A89), (0x11D46, 0x11D46), (0x11F02, 0x11F02),
    (0x1D165, 0x1D165), (0x1D16E, 0x1D172), (0xE0000, 0xE0000), (0xE0002, 0xE001F),
    (0xE0080, 0xE00FF), (0xE01F0, 0xE0FFF)]

/-- Khmer letters that are written under the letter before them. -/
def coengRanges : CharRanges :=
  [(0x1780, 0x1782), (0x1784, 0x1787), (0x1789, 0x178C), (0x178E, 0x1793), (0x1795, 0x1798),
    (0x179B, 0x179D), (0x17A0, 0x17A0), (0x17A2, 0x17A2), (0x17A7, 0x17A7), (0x17AB, 0x17AC),
    (0x17AF, 0x17AF)]

/-- Tifinagh letters, two of which can be joined. -/
def tifinaghRanges : CharRanges :=
  [(0x2D31, 0x2D65), (0x2D6F, 0x2D6F)]

/-- Characters that may stand in any ligature but an Arabic one. -/
def transparentRanges : CharRanges :=
  [(0x034F, 0x034F), (0x17B4, 0x17B5), (0x180B, 0x180D), (0x180F, 0x180F), (0xFE00, 0xFE0F),
    (0xE0100, 0xE01EF)]

def LigatureEnd.ofChar? (c : Char) : Option LigatureEnd :=
  match c.toNat with
  | 0x05DC => some lamed
  | 0x1A10 => some ya
  | 0xA4FC | 0xA4FD => some tone
  | 0x10C03 => some turkicI
  | _ =>
    if alefRanges.has c then some alef
    else if coengRanges.has c then some coengLetter
    else if tifinaghRanges.has c then some consonant
    else none

/-! ## What follows a character -/

/-- What follows a character, as far as its width depends on that. -/
inductive Following where
  | nothing
  | lineFeed
  | picture
  | modifier
  /-- So many regional indicators. -/
  | regional (count : Nat)
  /-- A joiner and a picture. -/
  | joined
  /-- A keycap, a joiner and a picture. -/
  | joinedKeycap
  /-- So many regional indicators, a joiner and a picture. -/
  | joinedRegional (count : Nat)
  /-- The end of a flag in tags, a joiner and a picture. -/
  | joinedTags (letters digits : Nat)
  /-- The end of a ligature, perhaps with a joiner in front. -/
  | ligature (e : LigatureEnd) (hasJoiner : Bool)
deriving DecidableEq, Repr

inductive Form where
  | text
  | picture
deriving DecidableEq, Repr

/-- What follows a character, perhaps behind a selector. -/
structure Ahead where
  what : Following := .nothing
  selector : Option Form := none
deriving DecidableEq, Repr

def Following.ofChar (c : Char) : Following :=
  if isPicture c then .picture
  else if isModifier c then .modifier
  else if isRegional c then .regional 1
  else (LigatureEnd.ofChar? c).elim .nothing (.ligature · false)

/-- A selector hides what follows it, except the end of a ligature, and what a picture in front of
it is joined with. -/
def Following.behind (what : Following) (form : Form) : Ahead :=
  match what, form with
  | .ligature .., _ | .joined, .picture | .joinedKeycap, .picture => ⟨what, some form⟩
  | _, _ => ⟨.nothing, some form⟩

/-- What a selector leaves over for a character that it says nothing to. -/
def Following.pastSelector : Following → Following
  | .ligature e hasJoiner => .ligature e hasJoiner
  | _ => .nothing

/-! ## Columns in a text

Each rule gives the columns that a character adds to those of what follows it, and what it is
itself for the character before it. -/

/-- A character that has nothing to do with what follows it. -/
def alone (c : Char) : Int × Ahead :=
  (columns c, { what := .ofChar c })

def joinLigature? (c : Char) (hasJoiner : Bool) : LigatureEnd → Option (Int × Ahead)
  | .alef =>
    if lamRanges.has c then some (0, {})
    else if columns c = 0 && !separatorRanges.has c then
      some (0, { what := .ligature .alef hasJoiner })
    else none
  | e =>
    if c = joiner then some (0, { what := .ligature e true })
    else if transparentRanges.has c then some (0, { what := .ligature e hasJoiner })
    else
      match e, c.toNat with
      | .lamed, 0x05D0 => if hasJoiner then some (0, {}) else none
      | .coengLetter, 0x17D2 => some (-1, {})
      | .ya, 0x1A17 => if hasJoiner then some (0, { what := .ligature .vowelYa true }) else none
      | .vowelYa, 0x1A15 => some (0, {})
      | .tone, code => if 0xA4F8 ≤ code && code ≤ 0xA4FB then some (0, {}) else none
      | .turkicI, 0x10C32 => if hasJoiner then some (0, {}) else none
      | .consonant, 0x2D7F => some (1, { what := .ligature .joinedConsonant true })
      | .consonant, _ => if hasJoiner && tifinaghRanges.has c then some (0, {}) else none
      | .joinedConsonant, _ => if tifinaghRanges.has c then some (-1, {}) else none
      | _, _ => none

/-- Tags spell a flag behind a black one: letters in the end, or three digits. -/
def joinTags? (c : Char) (letters digits : Nat) : Option (Int × Ahead) :=
  let code := c.toNat
  if 0xE0061 ≤ code && code ≤ 0xE007A && digits = 0 && letters < 6 then
    some (0, { what := .joinedTags (letters + 1) 0 })
  else if 0xE0030 ≤ code && code ≤ 0xE0039 && digits < 3 && (0 < digits || letters < 5) then
    some (0, { what := .joinedTags letters (digits + 1) })
  else if code = 0x1F3F4 && (digits = 3 || (digits = 0 && 3 ≤ letters)) then
    some (0, { what := .picture })
  else none

def join? (c : Char) : Following → Option (Int × Ahead)
  | .nothing | .lineFeed | .joinedKeycap => none
  | .picture => if c = joiner then some (0, { what := .joined }) else none
  | .modifier =>
    if isModifierBase c then some (0, { what := .picture })
    else if c = joiner then some (0, { what := .joined })
    else none
  | .regional count =>
    if isRegional c then some (1, { what := .regional (count + 1) })
    else if c = joiner && 1 < count then some (0, { what := .joined })
    else none
  | .joined =>
    if c = '\u20E3' then some (0, { what := .joinedKeycap })
    else if isPicture c then some (0, { what := .picture })
    else if isModifier c then some (0, { what := .modifier })
    else if isRegional c then some (1, { what := .joinedRegional 1 })
    else if c.toNat = 0xE007F then some (0, { what := .joinedTags 0 0 })
    else none
  | .joinedRegional count =>
    if isRegional c then
      some (if count % 2 = 1 then -1 else 3, { what := .joinedRegional (count + 1) })
    else if c = joiner && 1 < count then some (0, { what := .joined })
    else none
  | .joinedTags letters digits => joinTags? c letters digits
  | .ligature e hasJoiner => joinLigature? c hasJoiner e

/-- A character in front of something without a selector. -/
def before (c : Char) (what : Following) : Int × Ahead :=
  if c.toNat ≤ 0xA0 then
    if c = '\n' then (1, { what := .lineFeed })
    else if c = '\r' && what = .lineFeed then (0, {})
    else (1, {})
  else if c = pictureSelector then (0, what.behind .picture)
  else if c = textSelector then (0, what.behind .text)
  else (join? c what).getD (alone c)

def isJoined : Following → Bool
  | .joined | .joinedKeycap => true
  | _ => false

/-- A character in front of anything. A picture that is asked for has two columns, unless it is
joined with the next one, and a text that is asked for has one. -/
def beforeAhead (c : Char) (ahead : Ahead) : Int × Ahead :=
  match ahead.selector with
  | none => before c ahead.what
  | some .picture =>
    if hasPictureForm c then (if isJoined ahead.what then 0 else 2, { what := .picture })
    else before c ahead.what.pastSelector
  | some .text =>
    if hasTextForm c then (1, {}) else before c ahead.what.pastSelector

/-- The columns of a text and what it begins with. -/
def measure (text : List Char) : Int × Ahead :=
  text.foldr (fun c rest =>
    let first := beforeAhead c rest.2
    (first.1 + rest.1, first.2)) (0, {})

/-- The columns that a text takes. -/
def width (text : List Char) : Nat :=
  (measure text).1.toNat

theorem fst_before_nothing (c : Char) : (before c .nothing).1 = columns c := by
  rw [before]
  split
  · rename_i low
    have plain : columns c = 1 := by
      have notHyphen : c ≠ '\u00AD' := by rintro rfl; exact absurd low (by decide)
      unfold columns
      rw [if_pos (by omega), if_neg notHyphen]
    split
    · simp [plain]
    · simp [plain]
  · split
    · rename_i isSelector
      subst isSelector
      decide +kernel
    · split
      · rename_i isSelector
        subst isSelector
        decide +kernel
      · rfl

/-- A character that stands alone takes its own columns. -/
theorem width_singleton (c : Char) : width [c] = columns c := by
  simp [width, measure, beforeAhead, fst_before_nothing]

end TapeMachine.Text
