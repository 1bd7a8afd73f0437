import IdentityLine.Toml.Scalar
import IdentityLine.Toml.Table
import IdentityLine.Toml.Text

/-!
# Documents

A document is a sequence of lines: blank ones, keys with their values, and the
headers that open tables. The value of a key may run over several lines inside
its brackets. Arrays and tables in braces may stand inside one another only so
deep.
-/

namespace IdentityLine.Toml

/-- How deep arrays and tables in braces may stand inside one another. -/
def maxDepth : Nat := 80

/-- Pass over a character that must come next. -/
def expect (c : Char) (cs : List Char) : Option (List Char) :=
  match cs with
  | d :: rest => if d = c then some rest else none
  | [] => none

mutual

/-- A value. `depth` is how many more brackets may open, and `fuel` is at least twice the number of
characters. -/
def value (fuel depth : Nat) (cs : List Char) : Option (Value × List Char) :=
  match fuel with
  | 0 => none
  | fuel + 1 =>
      match cs with
      | '[' :: rest =>
          match depth with
          | 0 => none
          | depth + 1 =>
              (elements fuel depth rest).map fun (vs, rest) => (.array false vs, rest)
      | '{' :: rest =>
          match depth with
          | 0 => none
          | depth + 1 =>
              (members fuel depth [] rest).map fun (es, rest) => (.table .braces es, rest)
      | '"' :: _ => (string cs).map fun (s, rest) => (.string s, rest)
      | '\'' :: _ => (string cs).map fun (s, rest) => (.string s, rest)
      | _ =>
          let (w, rest) := word cs
          (wordValue? w).map fun v => (v, rest)

/-- The elements of an array, behind its opening bracket or a comma. -/
def elements (fuel depth : Nat) (cs : List Char) : Option (List Value × List Char) :=
  match fuel with
  | 0 => none
  | fuel + 1 =>
      match skipLines cs.length cs with
      | ']' :: rest => some ([], rest)
      | cs => do
          let (v, rest) ← value fuel depth cs
          match skipLines rest.length rest with
          | ']' :: rest => return ([v], rest)
          | ',' :: rest =>
              let (vs, rest) ← elements fuel depth rest
              return (v :: vs, rest)
          | _ => none

/-- The entries of a table in braces, added to those so far, behind its opening brace or a comma. -/
def members (fuel depth : Nat) (es : Entries) (cs : List Char) : Option (Entries × List Char) :=
  match fuel with
  | 0 => none
  | fuel + 1 =>
      match skipLines cs.length cs with
      | '}' :: rest => some (es, rest)
      | cs => do
          let ((path, name), rest) ← key cs
          let rest ← expect '=' (skipLines rest.length rest)
          let (v, rest) ← value fuel depth (skipLines rest.length rest)
          let es ← insertKey path name v .header es
          match skipLines rest.length rest with
          | '}' :: rest => return (es, rest)
          | ',' :: rest => members fuel depth es rest
          | _ => none

end

/-- A document as far as it has been read. -/
structure Draft where
  /-- The path of the table that the last header opened. -/
  header : List String
  root : Entries

/-- Read a header behind its first bracket. -/
def header (draft : Draft) (cs : List Char) : Option (Draft × List Char) :=
  match cs with
  | '[' :: rest => do
      let ((path, name), rest) ← key (skipBlank rest)
      let rest ← expect ']' (← expect ']' (skipBlank rest))
      let root ← openElement path name draft.root
      return ({ header := path ++ [name], root }, rest)
  | _ => do
      let ((path, name), rest) ← key (skipBlank cs)
      let rest ← expect ']' (skipBlank rest)
      let root ← openTable path name draft.root
      return ({ header := path ++ [name], root }, rest)

/-- Read a key with its value. -/
def entry (draft : Draft) (cs : List Char) : Option (Draft × List Char) := do
  let ((path, name), rest) ← key cs
  let rest ← expect '=' (skipBlank rest)
  let (v, rest) ← value (2 * rest.length + 2) maxDepth (skipBlank rest)
  let root ← insertBelow draft.header path name v draft.root
  return ({ draft with root }, rest)

/-- Read the lines of a document. `fuel` is more than the number of characters. -/
def lines (fuel : Nat) (draft : Draft) (cs : List Char) : Option Draft :=
  match fuel with
  | 0 => none
  | fuel + 1 =>
      match skipBlank cs with
      | [] => some draft
      | c :: rest =>
          if c = '[' then do
            let (draft, rest) ← header draft rest
            lines fuel draft (← finishLine rest)
          else if c = '#' ∨ c = '\n' ∨ c = '\r' then do
            lines fuel draft (← finishLine (c :: rest))
          else do
            let (draft, rest) ← entry draft (c :: rest)
            lines fuel draft (← finishLine rest)

/-- The table that a document is, if the text is one. A byte order mark may come first. -/
def parse (text : String) : Option Entries :=
  let cs := match text.toList with
    | '\uFEFF' :: rest => rest
    | cs => cs
  (lines (cs.length + 1) { header := [], root := [] } cs).map Draft.root

end IdentityLine.Toml
