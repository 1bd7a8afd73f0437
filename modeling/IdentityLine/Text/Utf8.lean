/-!
# UTF-8

Three kinds of bytes reach this program: environment variables, which count as
unset when they are not text; the configuration file, which is refused when it
is not text; and the host name, in which every invalid part is replaced. All
three are read through one step, which takes either a character or a maximal
invalid part off the front. The invalid part is the longest prefix that could
still have become a character, and one byte when there is no such prefix, so a
character cut short counts once however many of its bytes are left.
-/

namespace IdentityLine.Utf8

/-- What stands at the front of a byte sequence. -/
inductive Piece where
  /-- A well-formed character and the bytes behind it. -/
  | scalar (c : Char) (rest : List UInt8)
  /-- A maximal invalid part, left out, and the bytes behind it. -/
  | invalid (rest : List UInt8)

/-- The bytes behind a piece. -/
def Piece.rest : Piece → List UInt8
  | .scalar _ rest => rest
  | .invalid rest => rest

/-- Whether a byte may continue a character. -/
def isTail (b : UInt8) : Bool := 0x80 ≤ b && b ≤ 0xBF

/-- The six payload bits of a continuing byte. -/
def payload (b : UInt8) : Nat := b.toNat % 64

/-- The second bytes that may follow a first byte of a character of three or four bytes. They keep
out the longer spelling of a shorter character, the surrogates, and what lies past the last
character. -/
def isSecond (first second : UInt8) : Bool :=
  if first = 0xE0 then 0xA0 ≤ second && second ≤ 0xBF
  else if first = 0xED then 0x80 ≤ second && second ≤ 0x9F
  else if first = 0xF0 then 0x90 ≤ second && second ≤ 0xBF
  else if first = 0xF4 then 0x80 ≤ second && second ≤ 0x8F
  else isTail second

/-- Take the piece at the front of `b :: bs`. -/
def piece (b : UInt8) (bs : List UInt8) : Piece :=
  if b < 0x80 then .scalar (Char.ofNat b.toNat) bs
  else if 0xC2 ≤ b && b ≤ 0xDF then
    match bs with
    | b2 :: rest =>
        if isTail b2 then .scalar (Char.ofNat (b.toNat % 32 * 64 + payload b2)) rest
        else .invalid bs
    | [] => .invalid bs
  else if 0xE0 ≤ b && b ≤ 0xEF then
    match bs with
    | b2 :: tl =>
        if isSecond b b2 then
          match tl with
          | b3 :: rest =>
              if isTail b3 then
                .scalar (Char.ofNat ((b.toNat % 16 * 64 + payload b2) * 64 + payload b3)) rest
              else .invalid tl
          | [] => .invalid tl
        else .invalid bs
    | [] => .invalid bs
  else if 0xF0 ≤ b && b ≤ 0xF4 then
    match bs with
    | b2 :: tl =>
        if isSecond b b2 then
          match tl with
          | b3 :: tl' =>
              if isTail b3 then
                match tl' with
                | b4 :: rest =>
                    if isTail b4 then
                      .scalar (Char.ofNat
                        (((b.toNat % 8 * 64 + payload b2) * 64 + payload b3) * 64 + payload b4))
                        rest
                    else .invalid tl'
                | [] => .invalid tl'
              else .invalid tl
          | [] => .invalid tl
        else .invalid bs
    | [] => .invalid bs
  else .invalid bs

/-- A piece takes at least the first byte. -/
theorem length_rest_piece_le (b : UInt8) (bs : List UInt8) :
    (piece b bs).rest.length ≤ bs.length := by
  unfold piece
  repeat' split
  all_goals simp only [Piece.rest, List.length_cons]
  all_goals omega

/-- The pieces of a byte sequence in order, `none` for each maximal invalid part. -/
def pieces : List UInt8 → List (Option Char)
  | [] => []
  | b :: bs =>
      match _h : piece b bs with
      | .scalar c rest => some c :: pieces rest
      | .invalid rest => none :: pieces rest
termination_by bs => bs.length
decreasing_by
  all_goals
    have := length_rest_piece_le b bs
    rw [_h] at this
    simp only [Piece.rest, List.length_cons] at this ⊢
    omega

/-- The text that well-formed bytes encode. -/
def decode? (bytes : List UInt8) : Option String :=
  ((pieces bytes).mapM id).map String.ofList

/-- The text in which each maximal invalid part is U+FFFD. -/
def decodeLossy (bytes : List UInt8) : String :=
  String.ofList ((pieces bytes).map fun c => c.getD '\uFFFD')

end IdentityLine.Utf8
