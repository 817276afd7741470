import LineMarkup.Toml.Reader

/-!
# Reading TOML: strings and keys

Strings come in four forms, on one line or on several, with escapes or literally. An
escape names a character by a letter, or by its code point in two, four or eight
hexadecimal digits. A key is a bare word or a string on one line, and keys are joined
by dots.
-/

namespace LineMarkup.Toml

/-- The character that a short escape stands for. -/
def shortEscape? : Char → Option Char
  | 'b' => some '\x08'
  | 'e' => some '\x1b'
  | 't' => some '\t'
  | 'n' => some '\n'
  | 'f' => some '\x0c'
  | 'r' => some '\r'
  | '"' => some '"'
  | '\\' => some '\\'
  | _ => none

/-- The character at a code point in hexadecimal, which must be a scalar value. -/
def codePoint? (digits : List Char) : Option Char :=
  (number? 16 digits).bind fun point => if point.isValidChar then some (Char.ofNat point) else none

/-- The rest of a one-line string with escapes, after its opening quote. -/
def basicString : Reader (List Char)
  | '"' :: rest => some ([], rest)
  | '\\' :: 'x' :: a :: b :: rest => do
      let point ← codePoint? [a, b]
      let (content, rest) ← basicString rest
      return (point :: content, rest)
  | '\\' :: 'u' :: a :: b :: c :: d :: rest => do
      let point ← codePoint? [a, b, c, d]
      let (content, rest) ← basicString rest
      return (point :: content, rest)
  | '\\' :: 'U' :: a :: b :: c :: d :: e :: f :: g :: h :: rest => do
      let point ← codePoint? [a, b, c, d, e, f, g, h]
      let (content, rest) ← basicString rest
      return (point :: content, rest)
  | '\\' :: c :: rest => do
      let escaped ← shortEscape? c
      let (content, rest) ← basicString rest
      return (escaped :: content, rest)
  | c :: rest =>
      if c ≠ '\\' ∧ isPlain c then do
        let (content, rest) ← basicString rest
        return (c :: content, rest)
      else none
  | [] => none

/-- The rest of a one-line literal string, after its opening quote. -/
def literalString : Reader (List Char)
  | '\x27' :: rest => some ([], rest)
  | c :: rest =>
      if isPlain c then do
        let (content, rest) ← literalString rest
        return (c :: content, rest)
      else none
  | [] => none

/-- The rest of a string with escapes on several lines, after its opening quotes. A
backslash at the end of a line joins it to the next character that is no blank; while
`joining`, blanks and line ends are dropped. Up to two quotes may stand right before
the closing ones. -/
def basicLines (joining : Bool) : Reader (List Char)
  | '"' :: '"' :: '"' :: '"' :: '"' :: rest => some (['"', '"'], rest)
  | '"' :: '"' :: '"' :: '"' :: rest => some (['"'], rest)
  | '"' :: '"' :: '"' :: rest => some ([], rest)
  | '\\' :: 'x' :: a :: b :: rest => do
      let point ← codePoint? [a, b]
      let (content, rest) ← basicLines false rest
      return (point :: content, rest)
  | '\\' :: 'u' :: a :: b :: c :: d :: rest => do
      let point ← codePoint? [a, b, c, d]
      let (content, rest) ← basicLines false rest
      return (point :: content, rest)
  | '\\' :: 'U' :: a :: b :: c :: d :: e :: f :: g :: h :: rest => do
      let point ← codePoint? [a, b, c, d, e, f, g, h]
      let (content, rest) ← basicLines false rest
      return (point :: content, rest)
  | '\\' :: c :: rest =>
      if (skipNewline? (skipBlanks (c :: rest))).isSome then basicLines true rest
      else do
        let escaped ← shortEscape? c
        let (content, rest) ← basicLines false rest
        return (escaped :: content, rest)
  | '\r' :: '\n' :: rest =>
      if joining then basicLines true rest
      else do
        let (content, rest) ← basicLines false rest
        return ('\n' :: content, rest)
  | c :: rest =>
      if joining && (isBlank c || c = '\n') then basicLines true rest
      else if c ≠ '\\' ∧ (isPlain c || c = '\n') then do
        let (content, rest) ← basicLines false rest
        return (c :: content, rest)
      else none
  | [] => none

/-- The rest of a literal string on several lines, after its opening quotes. -/
def literalLines : Reader (List Char)
  | '\x27' :: '\x27' :: '\x27' :: '\x27' :: '\x27' :: rest => some (['\x27', '\x27'], rest)
  | '\x27' :: '\x27' :: '\x27' :: '\x27' :: rest => some (['\x27'], rest)
  | '\x27' :: '\x27' :: '\x27' :: rest => some ([], rest)
  | '\r' :: '\n' :: rest => do
      let (content, rest) ← literalLines rest
      return ('\n' :: content, rest)
  | c :: rest =>
      if isPlain c || c = '\n' then do
        let (content, rest) ← literalLines rest
        return (c :: content, rest)
      else none
  | [] => none

/-- The text behind a line end, or the text itself where there is none. A line end
right after the opening quotes of a string on several lines is no part of it. -/
def dropNewline (cs : List Char) : List Char := (skipNewline? cs).getD cs

def string : Reader String := fun cs =>
  let content :=
    match cs with
    | '"' :: '"' :: '"' :: rest => basicLines false (dropNewline rest)
    | '"' :: rest => basicString rest
    | '\x27' :: '\x27' :: '\x27' :: rest => literalLines (dropNewline rest)
    | '\x27' :: rest => literalString rest
    | _ => none
  content.map fun (content, rest) => (String.ofList content, rest)

def isBareKeyChar (c : Char) : Bool := c.isAlphanum || c = '_' || c = '-'

def key : Reader String
  | '"' :: rest => (basicString rest).map fun (content, rest) => (String.ofList content, rest)
  | '\x27' :: rest => (literalString rest).map fun (content, rest) => (String.ofList content, rest)
  | cs =>
      let word := cs.takeWhile isBareKeyChar
      if word.isEmpty then none else some (String.ofList word, cs.dropWhile isBareKeyChar)

/-- How deep tables and arrays may stand within each other in one key or one value. -/
def nestingLimit : Nat := 80

/-- At most `count` keys joined by dots, with the blanks around them. -/
def dottedKeyWithin : (count : Nat) → Reader (List String)
  | 0, _ => none
  | count + 1, cs => do
      let (name, rest) ← key (skipBlanks cs)
      match skipBlanks rest with
      | '.' :: rest => do
          let (names, rest) ← dottedKeyWithin count rest
          return (name :: names, rest)
      | rest => return ([name], rest)

/-- Keys joined by dots, with the blanks around them. Each but the last names a table,
so there is one key more than tables may stand within each other. -/
def dottedKey : Reader (List String) := dottedKeyWithin (nestingLimit + 1)

end LineMarkup.Toml
