import IdentityLine.Identity
import IdentityLine.Proofs.Reading

/-!
# A canonical line says four things, and says them once

A line is read by its structure alone: what stands before the only `<`, between
it and the only `>`, and on either side of the last space. For that to work, no
field may bring structure of its own, and that is what cleaning a field is for.
The seconds and the offset never needed it: they are digits and signs.

So the reader below undoes the line, with no condition on what the name and the
address hold and none on the offset. What it gives back are the cleaned texts,
the whole seconds and the offset, and two identities with the same line agree in
these four. Everything else about them, padding and milliseconds included, is
lost to the line; the converse says that nothing else gets in.
-/

namespace IdentityLine

open Text

/-- What a canonical line says. -/
structure LineFields where
  name : String
  email : String
  seconds : Int
  /-- Minutes east of UTC. -/
  offset : Int
deriving DecidableEq

/-- Read a canonical line: the name ends a space before the only `<`, the address at the only `>`,
and the seconds start a space behind it and end at the last space. -/
def LineFields.ofLine? (line : String) : Option LineFields := do
  let (name, rest) ← splitAt? '<' line.toList
  let (email, stamp) ← splitAt? '>' rest
  let (seconds, offset) ← splitAtLast? ' ' stamp
  return {
    name := String.ofList name.dropLast
    email := String.ofList email
    seconds := ← Decimal.int? seconds.tail
    offset := ← Offset.minutesOf? offset }

namespace Identity

theorem toList_line (i : Identity) :
    i.line.toList = (clean i.name.toList ++ [' ']) ++ '<' :: (clean i.email.toList ++ '>' ::
      (' ' :: Decimal.signed i.seconds ++ ' ' :: i.offset.chars)) := by
  simp only [line, Offset.text, String.toList_append, toList_sanitize, String.toList_ofList,
    show " <".toList = [' ', '<'] from rfl, show "> ".toList = ['>', ' '] from rfl,
    show " ".toList = [' '] from rfl, List.append_assoc, List.cons_append, List.nil_append]

/-! ## No field brings structure of its own -/

theorem count_clean {c : Char} (hc : isDelimiter c = true) (cs : List Char) :
    (clean cs).count c = 0 := by
  rw [List.count_eq_zero]
  intro h
  rw [not_isDelimiter_of_mem_clean h] at hc
  cases hc

/-- A delimiter is nothing that a number, a sign or a space could put into a line. -/
theorem plain_of_isDelimiter {c : Char} (hc : isDelimiter c = true) :
    c.isDigit = false ∧ c ≠ '+' ∧ c ≠ '-' ∧ c ≠ ' ' := by
  simp only [isDelimiter, Bool.or_eq_true, beq_iff_eq] at hc
  rcases hc with (rfl | rfl) | rfl
  all_goals decide

theorem count_name {c : Char} (hc : isDelimiter c = true) (i : Identity) :
    (clean i.name.toList ++ [' ']).count c = 0 := by
  obtain ⟨_, _, _, hspace⟩ := plain_of_isDelimiter hc
  rw [List.count_append, count_clean hc, List.count_cons_of_ne hspace.symm]
  rfl

theorem count_stamp {c : Char} (hc : isDelimiter c = true) (i : Identity) :
    (' ' :: Decimal.signed i.seconds ++ ' ' :: i.offset.chars).count c = 0 := by
  obtain ⟨hdigit, hplus, hminus, hspace⟩ := plain_of_isDelimiter hc
  rw [List.count_eq_zero, List.cons_append, List.mem_cons, List.mem_append, List.mem_cons]
  rintro (h | h | h | h)
  · exact hspace h
  · exact Decimal.not_mem_signed hminus hdigit h
  · exact hspace h
  · exact Offset.not_mem_chars hplus hminus hdigit h

/-- The delimiters of a line are the two brackets around its address, and no others. -/
theorem count_line {c : Char} (hc : isDelimiter c = true) (i : Identity) :
    i.line.toList.count c = ['<', '>'].count c := by
  rw [toList_line, List.count_append, count_name hc, List.count_cons, List.count_append,
    count_clean hc, List.count_cons, count_stamp hc, List.count_cons, List.count_cons]
  simp only [List.count_nil, Nat.zero_add, Nat.add_comm]

/-! ## The line read back -/

theorem ofLine?_line (i : Identity) :
    LineFields.ofLine? i.line = some {
      name := sanitize i.name
      email := sanitize i.email
      seconds := i.seconds
      offset := i.offset.toInt } := by
  have hname : '<' ∉ clean i.name.toList ++ [' '] := List.count_eq_zero.mp (count_name rfl i)
  have hemail : '>' ∉ clean i.email.toList := List.count_eq_zero.mp (count_clean rfl _)
  have hoffset : ' ' ∉ i.offset.chars :=
    Offset.not_mem_chars (by decide) (by decide) (by decide)
  rw [LineFields.ofLine?, toList_line]
  refine Option.bind_eq_some_iff.mpr ⟨_, splitAt?_append _ hname, ?_⟩
  refine Option.bind_eq_some_iff.mpr ⟨_, splitAt?_append _ hemail, ?_⟩
  refine Option.bind_eq_some_iff.mpr ⟨_, splitAtLast?_append _ hoffset, ?_⟩
  refine Option.bind_eq_some_iff.mpr ⟨_, Decimal.int?_signed _, ?_⟩
  refine Option.bind_eq_some_iff.mpr ⟨_, Offset.minutesOf?_chars _, ?_⟩
  rw [List.dropLast_concat]
  rfl

/-- The canonical line is unambiguous. Its delimiters are one opening and one closing bracket, it is
read back by them and its last space, and it is the line of exactly those identities that agree in
the four things it says. -/
theorem line_unambiguous (i j : Identity) :
    (i.line.toList.count '<' = 1 ∧ i.line.toList.count '>' = 1 ∧ '\n' ∉ i.line.toList)
    ∧ LineFields.ofLine? i.line = some {
        name := sanitize i.name
        email := sanitize i.email
        seconds := i.millis.toInt.tdiv 1000
        offset := i.offset.toInt }
    ∧ (i.line = j.line ↔
        sanitize i.name = sanitize j.name ∧ sanitize i.email = sanitize j.email
        ∧ i.millis.toInt.tdiv 1000 = j.millis.toInt.tdiv 1000 ∧ i.offset = j.offset) := by
  refine ⟨⟨count_line rfl i, count_line rfl i, ?_⟩, ofLine?_line i, ?_, ?_⟩
  · exact List.count_eq_zero.mp (count_line rfl i)
  · intro h
    have hread := ofLine?_line i
    rw [h, ofLine?_line j, Option.some.injEq, LineFields.mk.injEq] at hread
    obtain ⟨hname, hemail, hseconds, hoffset⟩ := hread
    exact ⟨hname.symm, hemail.symm, hseconds.symm, Int32.toInt_inj.mp hoffset.symm⟩
  · rintro ⟨hname, hemail, hseconds, hoffset⟩
    have hseconds : i.seconds = j.seconds := hseconds
    rw [line, line, hname, hemail, hseconds, hoffset]

end Identity

end IdentityLine
