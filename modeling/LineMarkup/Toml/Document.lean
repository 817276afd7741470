import LineMarkup.Toml.Table
import LineMarkup.Toml.Text

/-!
# TOML documents

A document is a table, written as statements on lines of their own: keys with their
values, and headers that say into which table the keys below them go.
-/

namespace LineMarkup.Toml

/-- Whether a character may stand in a value that is neither quoted nor bracketed. -/
def isWordChar (c : Char) : Bool :=
  c.isAlphanum || c = '_' || c = '-' || c = '+' || c = '.' || c = ':'

def wordValue? (word : List Char) : Option Value :=
  if word = ['t', 'r', 'u', 'e'] then some (.boolean true)
  else if word = ['f', 'a', 'l', 's', 'e'] then some (.boolean false)
  else
    (integer? word).map Value.integer <|> (float? word).map Value.float <|>
      (dateTime? word).map Value.dateTime

/-- A value that is one word. A date may be joined to its time by a single space. -/
def wordValue : Reader Value := fun cs =>
  let word := cs.takeWhile isWordChar
  let joined :=
    match cs.drop word.length with
    | ' ' :: c :: rest =>
        if isDigitOf 10 c && (date word).any (·.2.isEmpty) then
          ' ' :: (c :: rest).takeWhile isWordChar
        else []
    | _ => []
  (wordValue? (word ++ joined)).map fun value => (value, cs.drop (word ++ joined).length)

/-- A value without brackets: a string or a word. -/
def plainValue : Reader Value := fun cs =>
  match cs with
  | '"' :: _ | '\x27' :: _ => (string cs).map fun (content, rest) => (.string content, rest)
  | _ => wordValue cs

/-- The rest of an array, where an item or the closing bracket is expected, with a
reader for the items; `fuel` bounds their number. Line ends and comments may stand
between items, and a comma behind the last. -/
def itemsUpTo (item : Reader Value) : Nat → Reader (List Value)
  | 0, _ => none
  | fuel + 1, cs => do
      match ← skipGap? false cs with
      | ']' :: rest => return ([], rest)
      | cs => do
          let (first, rest) ← item cs
          match ← skipGap? false rest with
          | ',' :: rest => do
              let (others, rest) ← itemsUpTo item fuel rest
              return (first :: others, rest)
          | ']' :: rest => return ([first], rest)
          | _ => none

/-- The rest of an inline table, where a key or the closing brace is expected, added to
the keys before, with a reader for the values; `fuel` bounds the number of keys. Line
ends and comments may stand anywhere but within a dotted key, and a comma behind the
last value. -/
def membersUpTo (member : Reader Value) : Nat → Table → Reader Table
  | 0, _, _ => none
  | fuel + 1, table, cs => do
      match ← skipGap? false cs with
      | '\x7d' :: rest => return (table, rest)
      | cs => do
          let (path, rest) ← dottedKey cs
          match ← skipGap? false rest with
          | '=' :: rest => do
              let (value, rest) ← member (← skipGap? false rest)
              let table ← table.set path value
              match ← skipGap? false rest with
              | ',' :: rest => membersUpTo member fuel table rest
              | '\x7d' :: rest => return (table, rest)
              | _ => none
          | _ => none

/-- A value in which brackets and braces open at most `depth` times within each other.
Items and keys take a character each, so their number is bounded by the length of the
text. -/
def valueWithin : Nat → Reader Value
  | 0, cs => plainValue cs
  | depth + 1, cs =>
      match cs with
      | '[' :: rest => do
          let (items, rest) ← itemsUpTo (valueWithin depth) (rest.length + 1) rest
          return (.array items, rest)
      | '\x7b' :: rest => do
          let (table, rest) ←
            membersUpTo (valueWithin depth) (rest.length + 1) (.empty .inline) rest
          return (table.toValue, rest)
      | _ => plainValue cs

/-- A value, with no more nesting than the limit allows. -/
def value : Reader Value := valueWithin nestingLimit

/-- A document that is being read: the whole table, and the path of the last header. -/
structure Draft where
  root : Table
  header : List String
  deriving Repr, Inhabited

def Draft.empty : Draft := { root := .empty .header, header := [] }

/-- A key with its value, put into the table of the last header. -/
def keyStatement (draft : Draft) : Reader Draft := fun cs => do
  let (path, rest) ← dottedKey cs
  match rest with
  | '=' :: rest => do
      let (value, rest) ← value (skipBlanks rest)
      return ({ draft with root := ← draft.root.update false (Table.set path value) draft.header },
        rest)
  | _ => none

/-- One statement: a header in double or single brackets, or a key with its value. -/
def statement (draft : Draft) : Reader Draft
  | '[' :: '[' :: rest => do
      let (path, rest) ← dottedKey rest
      match rest with
      | ']' :: ']' :: rest => return ({ root := ← draft.root.openRow path, header := path }, rest)
      | _ => none
  | '[' :: rest => do
      let (path, rest) ← dottedKey rest
      match rest with
      | ']' :: rest => return ({ root := ← draft.root.openTable path, header := path }, rest)
      | _ => none
  | cs => keyStatement draft cs

/-- Whether a line has no statement, as seen from its first character that is no blank. -/
def isEmptyLine : List Char → Bool
  | [] => true
  | c :: _ => c = '#' || c = '\n' || c = '\r'

/-- Read lines into a draft; `fuel` bounds their number. -/
def linesUpTo : Nat → Draft → List Char → Option Draft
  | 0, _, _ => none
  | fuel + 1, draft, cs => do
      let cs := skipBlanks cs
      if cs = [] then return draft
      let (draft, rest) ← if isEmptyLine cs then some (draft, cs) else statement draft cs
      linesUpTo fuel draft (← skipLineEnd? rest)

/-- The text without a byte order mark at its front. -/
def dropByteOrderMark : List Char → List Char
  | c :: rest => if c.toNat = 0xFEFF then rest else c :: rest
  | [] => []

/-- The table of a document. Every line takes a character, so the number of lines is
bounded by the length of the text. -/
def parse? (text : String) : Option Table :=
  let cs := dropByteOrderMark text.toList
  (linesUpTo (cs.length + 1) .empty cs).map Draft.root

end LineMarkup.Toml
