import Phrasebook.Text.WidthTable

/-!
# Display width

The measure of texts that the program is started with: the number of columns a text takes up in a
terminal. A text is measured from its end, since what a character takes up may depend on the
characters after it: a variation selector, a skin tone or a joiner makes an emoji sequence, which is
two columns wide as a whole, an alef is joined to a lam before it, and Khmer letters are put under
others. Letters of other scripts are counted one by one, also where a font would join them.
-/

namespace Phrasebook.Text

/-- What follows a character, as far as it matters for the character's width. -/
inductive Following where
  | plain
  | lineFeed
  /-- The emoji selector; `joined` if an emoji is joined to what it selects. -/
  | emojiStyle (joined : Bool)
  | textStyle
  | emoji
  /-- A joiner and an emoji. -/
  | joinedEmoji
  | skinTone
  /-- An alef, to which a lam before it is joined. -/
  | alef
  /-- A letter that a coeng sign before it puts under another one. -/
  | subscriptLetter
  deriving DecidableEq, Repr

/-- The five skin tones. -/
def isSkinTone (c : Char) : Bool :=
  Ranges.covers [(0x1f3fb, 0x1f3ff)] c

/-- The forms of alef. -/
def isAlef (c : Char) : Bool :=
  Ranges.covers [(0x622, 0x623), (0x625, 0x625), (0x627, 0x627), (0x671, 0x673), (0x675, 0x675),
    (0x773, 0x774), (0x870, 0x882)] c

/-- The forms of lam. -/
def isLam (c : Char) : Bool :=
  Ranges.covers [(0x644, 0x644), (0x6b5, 0x6b8), (0x76a, 0x76a), (0x8a6, 0x8a6), (0x8c7, 0x8c7)] c

/-- The Khmer letters that have a subscript form. -/
def hasSubscript (c : Char) : Bool :=
  Ranges.covers [(0x1780, 0x1782), (0x1784, 0x1787), (0x1789, 0x178c), (0x178e, 0x1793),
    (0x1795, 0x1798), (0x179b, 0x179d), (0x17a0, 0x17a0), (0x17a2, 0x17a2), (0x17a7, 0x17a7),
    (0x17ab, 0x17ac), (0x17af, 0x17af)] c

/-- The width of a character on its own. -/
def charWidth (c : Char) : Nat :=
  if c ≤ '\u00a0' then 1
  else if zeroWidth.covers c then 0
  else if doubleWidth.covers c then 2
  else 1

/-- What a character on its own is to the one before it. -/
def asFollowing (c : Char) : Following :=
  if isSkinTone c then .skinTone
  else if emojiByDefault.covers c then .emoji
  else if isAlef c then .alef
  else if hasSubscript c then .subscriptLetter
  else .plain

/-- Adds a character in front of a text of the given width. -/
def prependWidth (c : Char) (width : Nat) (next : Following) : Nat × Following :=
  match next with
  | .emojiStyle joined =>
    if styledBases.covers c then (if joined then width else width + 2, .emoji)
    else unstyled (if joined then .joinedEmoji else .plain)
  | next => unstyled next
where
  /-- The character when no emoji selector follows it directly. -/
  unstyled (next : Following) : Nat × Following :=
    if c ≤ '\u00a0' then
      if c = '\n' then (width + 1, .lineFeed)
      else if c = '\r' && next = .lineFeed then (width, .plain)
      else (width + 1, .plain)
    else if c = '\ufe0f' then (width, .emojiStyle (next = .joinedEmoji))
    else if c = '\ufe0e' then (width, .textStyle)
    else
      match next with
      | .textStyle =>
        if styledBases.covers c && !ideographicBases.covers c then (width + 1, .plain) else alone
      | .emoji => if c = '\u200d' then (width, .joinedEmoji) else alone
      | .joinedEmoji =>
        if isSkinTone c then (width, .skinTone)
        else if emojiByDefault.covers c then (width, .emoji)
        else alone
      | .skinTone => if skinToneBases.covers c then (width, .emoji) else alone
      | .alef =>
        if isLam c then (width, .plain)
        else if zeroWidth.covers c then (width, .alef)
        else alone
      | .subscriptLetter => if c = '\u17d2' then (width - 1, .plain) else alone
      | _ => alone
  /-- The character by itself. -/
  alone : Nat × Following := (width + charWidth c, asFollowing c)

/-- The number of columns a text takes up. -/
def displayWidth (cs : List Char) : Nat :=
  (cs.foldr (fun c (width, next) => prependWidth c width next) (0, .plain)).1

end Phrasebook.Text
