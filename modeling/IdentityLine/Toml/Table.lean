import IdentityLine.Toml.Value

/-!
# Putting a document's tables together

A header opens a table and a dotted key goes into tables on its way, and each may
make the tables that it passes. What may be passed and what may be opened follows
from how a table came to be:

* a table in braces is complete and nothing passes into it;
* a dotted key passes only tables that no header has opened, and puts its value
  only into a table that dotted keys made;
* a header opens a table that is new or was only implied so far;
* a header in double brackets adds an element to an array that such headers made,
  and whatever passes such an array goes into its last element.

Nothing is ever given a second value.
-/

namespace IdentityLine.Toml

/-- Change the value of a key, which may be missing so far; nothing comes of it when the change is
not allowed. -/
def update (es : Entries) (key : String) (change : Option Value → Option Value) :
    Option Entries :=
  match es with
  | [] => (change none).map fun v => [(key, v)]
  | (k, v) :: rest =>
      if k = key then (change (some v)).map fun v => (k, v) :: rest
      else (update rest key change).map fun rest => (k, v) :: rest

/-- Change the last of some values. -/
def updateLast (change : Value → Option Value) : List Value → Option (List Value)
  | [] => none
  | [v] => (change v).map fun v => [v]
  | v :: w :: rest => (updateLast change (w :: rest)).map fun rest => v :: rest

/-- Who is on the way: a header, or a dotted key. -/
inductive Traveller where
  | header
  | dottedKey
deriving DecidableEq

/-- The origin of a table that is made on the way. -/
def Traveller.makes : Traveller → Origin
  | .header => .implied
  | .dottedKey => .dotted

/-- Whether one may pass a table of an origin. -/
def Traveller.passes (t : Traveller) : Origin → Bool
  | .braces => false
  | .header => t == .header
  | .implied => true
  | .dotted => true

/-- Go along a path, making the tables that are missing, and change the entries of the last. -/
def alongPath (t : Traveller) (path : List String)
    (change : Origin → Entries → Option Entries) (origin : Origin) (es : Entries) :
    Option Entries :=
  match path with
  | [] => change origin es
  | key :: path =>
      update es key fun
        | none => (alongPath t path change t.makes []).map (.table t.makes)
        | some (.table o inner) =>
            if t.passes o then (alongPath t path change o inner).map (.table o) else none
        | some (.array true elements) =>
            (updateLast
              (fun
                | .table o inner => (alongPath t path change o inner).map (.table o)
                | _ => none)
              elements).map (.array true)
        | some _ => none

/-- Give a key its value. A dotted key's last table must be one that dotted keys made. -/
def insertKey (path : List String) (key : String) (v : Value) (origin : Origin) (es : Entries) :
    Option Entries :=
  alongPath .dottedKey path
    (fun o inner =>
      if (o == .dotted) = path.isEmpty then none
      else update inner key fun
        | none => some v
        | some _ => none)
    origin es

/-- Open a table by its header. -/
def openTable (path : List String) (key : String) (root : Entries) : Option Entries :=
  alongPath .header path
    (fun _ inner => update inner key fun
      | none => some (.table .header [])
      | some (.table .implied es) => some (.table .header es)
      | some _ => none)
    .header root

/-- Add a table to an array by a header in double brackets. -/
def openElement (path : List String) (key : String) (root : Entries) : Option Entries :=
  alongPath .header path
    (fun _ inner => update inner key fun
      | none => some (.array true [.table .header []])
      | some (.array true elements) => some (.array true (elements ++ [.table .header []]))
      | some _ => none)
    .header root

/-- Give a key its value in the table that a header opened. -/
def insertBelow (header path : List String) (key : String) (v : Value) (root : Entries) :
    Option Entries :=
  alongPath .header header (insertKey path key v) .header root

end IdentityLine.Toml
