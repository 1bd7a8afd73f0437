import IdentityLine.Proofs.JsonGrammar

/-!
# A value is passed over exactly when it is one

The pass over a value keeps the brackets that are open on a stack, and the grammar has
them nested in one another. The two meet in what the pass does at a part of a value:
a value is passed over wherever it stands, an item of a bracket as far as the next comma
or the closing bracket, and a list of items together with the bracket that closes it.

No string is decoded on the way, a key no more than a value, so a value may have halves of
pairs in it, and numbers without a size.

The other direction has no part of a value to go by, only a place, a stack and a text
that the pass came through. What such a text has in front depends on the place, and what
follows closes the brackets on the stack one after another, with more items before each
of them or without.
-/

namespace IdentityLine.Json

/-! ## The grammar -/

/-- The character that opens a bracket. -/
def Bracket.opening : Bracket → Char
  | .array => '['
  | .object => '\x7b'

/-- The values that are words. -/
def words : List (List Char) :=
  [['n', 'u', 'l', 'l'], ['t', 'r', 'u', 'e'], ['f', 'a', 'l', 's', 'e']]

/-- A part of a value. -/
inductive Part where
  /-- A value itself. -/
  | value
  /-- What stands in a bracket between two commas, with the white space around it. -/
  | item (b : Bracket)
  /-- What stands in a bracket, unless it is white space alone. -/
  | list (b : Bracket)

/-- A part of a value, written out. -/
inductive Written : Part → List Char → Prop
  | word {w : List Char} (h : w ∈ words) : Written .value w
  | string {body : List Char} (h : IsBody body) : Written .value ('"' :: (body ++ ['"']))
  | number {v : List Char} {n : Spelling} (h : WritesNumber v n) : Written .value v
  | empty (b : Bracket) {ws : List Char} (h : IsSpaces ws) :
      Written .value (b.opening :: (ws ++ [b.close]))
  | bracket {b : Bracket} {items : List Char} (h : Written (.list b) items) :
      Written .value (b.opening :: (items ++ [b.close]))
  | element {before v after : List Char} (hbefore : IsSpaces before) (h : Written .value v)
      (hafter : IsSpaces after) : Written (.item .array) (before ++ (v ++ after))
  | member {before key ws ws' v after : List Char} (hbefore : IsSpaces before)
      (hkey : IsBody key) (hws : IsSpaces ws) (hws' : IsSpaces ws') (h : Written .value v)
      (hafter : IsSpaces after) :
      Written (.item .object)
        (before ++ '"' :: (key ++ '"' :: (ws ++ ':' :: (ws' ++ (v ++ after)))))
  | one {b : Bracket} {item : List Char} (h : Written (.item b) item) : Written (.list b) item
  | more {b : Bracket} {item items : List Char} (h : Written (.item b) item)
      (hs : Written (.list b) items) : Written (.list b) (item ++ ',' :: items)

theorem Bracket.isSpace_opening (b : Bracket) : isSpace b.opening = false := by
  cases b
  all_goals decide

theorem Bracket.isSpace_close (b : Bracket) : isSpace b.close = false := by
  cases b
  all_goals decide

theorem endsNumber_close (b : Bracket) (rest : List Char) : EndsNumber (b.close :: rest) := by
  cases b
  all_goals exact endsNumber_cons (by decide) rest

theorem endsNumber_comma (rest : List Char) : EndsNumber (',' :: rest) :=
  endsNumber_cons (by decide) rest

/-- No part of a value starts with white space that matters, or like the end of a bracket. -/
theorem Written.head {part : Part} {cs : List Char} (h : Written part cs) (rest : List Char) :
    ∃ c tail, skipSpace (cs ++ rest) = c :: tail ∧ c ≠ ']' ∧ c ≠ '\x7d' := by
  induction h generalizing rest with
  | word h =>
      simp only [words, List.mem_cons, List.not_mem_nil, or_false] at h
      rcases h with rfl | rfl | rfl
      all_goals exact ⟨_, _, rfl, by decide⟩
  | string h => exact ⟨'"', _, rfl, by decide⟩
  | number h =>
      obtain ⟨c, tail, rfl, hc⟩ := h.exists_cons
      exact ⟨c, _, skipSpace_cons (isSpace_of_starts hc) _,
        ne_of_starts hc (by decide) (by decide), ne_of_starts hc (by decide) (by decide)⟩
  | empty b h =>
      refine ⟨b.opening, _, skipSpace_cons b.isSpace_opening _, ?_⟩
      cases b
      all_goals decide
  | @bracket b items h ih =>
      refine ⟨b.opening, _, skipSpace_cons b.isSpace_opening _, ?_⟩
      cases b
      all_goals decide
  | element hbefore h hafter ih =>
      rw [List.append_assoc, skipSpace_append hbefore, List.append_assoc]
      exact ih _
  | member hbefore =>
      rw [List.append_assoc, skipSpace_append hbefore]
      exact ⟨'"', _, rfl, by decide⟩
  | one h ih => exact ih rest
  | more h hs ih =>
      rw [List.append_assoc]
      exact ih _

/-! ## One turn of the pass -/

theorem skipFrom_value {cs tail : List Char} {c : Char} (pending : List Bracket)
    (h : skipSpace cs = c :: tail) :
    skipFrom .value pending cs =
      if c = '[' then skipFrom .opened (.array :: pending) tail
      else if c = '\x7b' then skipFrom .opened (.object :: pending) tail
      else (skipScalar c tail).bind (skipFrom .behind pending) := by
  rw [skipFrom.eq_def .value]
  dsimp only
  split
  · next h' => rw [h] at h'; cases h'
  · next h' =>
      rw [h] at h'
      cases h'
      congr 2
      split
      · next hs => rw [hs]; rfl
      · next hs => rw [hs]; rfl

theorem skipFrom_key {cs tail : List Char} {c : Char} (pending : List Bracket)
    (h : skipSpace cs = c :: tail) :
    skipFrom .key pending cs =
      if c = '"' then (skipKey tail).bind (skipFrom .value pending) else .error .malformed := by
  rw [skipFrom.eq_def .key]
  dsimp only
  split
  · next h' => rw [h] at h'; cases h'
  · next h' =>
      rw [h] at h'
      cases h'
      congr 1
      split
      · next hs => rw [hs]; rfl
      · next hs => rw [hs]; rfl

theorem skipFrom_behind {cs tail : List Char} {c : Char} (b : Bracket) (outer : List Bracket)
    (h : skipSpace cs = c :: tail) :
    skipFrom .behind (b :: outer) cs =
      if c = ',' then skipFrom b.element (b :: outer) tail
      else if c = b.close then skipFrom .behind outer tail
      else .error .malformed := by
  rw [skipFrom.eq_def .behind]
  dsimp only
  split
  · next h' => rw [h] at h'; cases h'
  · next h' =>
      rw [h] at h'
      cases h'
      rfl

theorem skipFrom_opened {cs tail : List Char} {c : Char} (b : Bracket) (outer : List Bracket)
    (h : skipSpace cs = c :: tail) :
    skipFrom .opened (b :: outer) cs =
      if c = b.close then skipFrom .behind outer tail
      else skipFrom b.element (b :: outer) (c :: tail) := by
  rw [skipFrom.eq_def .opened]
  dsimp only
  split
  · next h' => rw [h] at h'; cases h'
  · next h' =>
      rw [h] at h'
      cases h'
      rfl

theorem skipFrom_nil {place : Place} {b : Bracket} {outer : List Bracket} {cs : List Char}
    (h : skipSpace cs = []) : skipFrom place (b :: outer) cs = .error .truncated := by
  rw [skipFrom.eq_def]
  cases place
  all_goals
    dsimp only
    split
    · rfl
    · next h' => rw [h] at h'; cases h'

/-- Inside a bracket, white space in front changes nothing. -/
theorem skipFrom_congr (place : Place) (b : Bracket) (outer : List Bracket) {cs cs' : List Char}
    (h : skipSpace cs = skipSpace cs') :
    skipFrom place (b :: outer) cs = skipFrom place (b :: outer) cs' := by
  cases hspace : skipSpace cs' with
  | nil => rw [skipFrom_nil (h.trans hspace), skipFrom_nil hspace]
  | cons c tail =>
      cases place with
      | value => rw [skipFrom_value _ (h.trans hspace), skipFrom_value _ hspace]
      | opened => rw [skipFrom_opened _ _ (h.trans hspace), skipFrom_opened _ _ hspace]
      | behind => rw [skipFrom_behind _ _ (h.trans hspace), skipFrom_behind _ _ hspace]
      | key => rw [skipFrom_key _ (h.trans hspace), skipFrom_key _ hspace]

/-! ## What is written is passed over -/

theorem skipScalar_of_string {body : List Char} (h : IsBody body) (rest : List Char) :
    skipScalar '"' ((body ++ ['"']) ++ rest) = .ok rest := by
  rw [skipScalar, if_pos rfl, List.append_assoc]
  exact skipString_of_isBody h rest

theorem skipScalar_of_number {c : Char} {tail : List Char} {n : Spelling}
    (h : WritesNumber (c :: tail) n) (hc : c = '-' ∨ c.isDigit = true) {rest : List Char}
    (hend : EndsNumber rest) : skipScalar c (tail ++ rest) = .ok rest := by
  rw [skipScalar, if_neg (ne_of_starts hc (by decide) (by decide)),
    if_neg (ne_of_starts hc (by decide) (by decide)),
    if_neg (ne_of_starts hc (by decide) (by decide)),
    if_neg (ne_of_starts hc (by decide) (by decide)), if_pos hc]
  exact skipNumber_of_writesNumber h hend

theorem skipFrom_scalar {c : Char} {tail ws rest : List Char} (pending : List Bracket)
    (hws : IsSpaces ws) (hspace : isSpace c = false) (harray : c ≠ '[') (hobject : c ≠ '\x7b')
    (h : skipScalar c (tail ++ rest) = .ok rest) :
    skipFrom .value pending (ws ++ ((c :: tail) ++ rest)) = skipFrom .behind pending rest := by
  have hhead : skipSpace (ws ++ ((c :: tail) ++ rest)) = c :: (tail ++ rest) :=
    skipSpace_spaces hws hspace _
  rw [skipFrom_value pending hhead, if_neg harray, if_neg hobject, h]
  rfl

theorem skipFrom_bracket {b : Bracket} {ws cs : List Char} (pending : List Bracket)
    (hws : IsSpaces ws) :
    skipFrom .value pending (ws ++ b.opening :: cs) = skipFrom .opened (b :: pending) cs := by
  have hhead : skipSpace (ws ++ b.opening :: cs) = b.opening :: cs :=
    skipSpace_spaces hws b.isSpace_opening _
  rw [skipFrom_value pending hhead]
  cases b
  all_goals rfl

theorem skipFrom_close {b : Bracket} {ws cs : List Char} (outer : List Bracket)
    (hws : IsSpaces ws) :
    skipFrom .behind (b :: outer) (ws ++ b.close :: cs) = skipFrom .behind outer cs := by
  have hhead : skipSpace (ws ++ b.close :: cs) = b.close :: cs :=
    skipSpace_spaces hws b.isSpace_close _
  have hcomma : b.close ≠ ',' := by
    cases b
    all_goals decide
  rw [skipFrom_behind b outer hhead, if_neg hcomma, if_pos rfl]

theorem skipKey_of_isBody {key ws : List Char} (hkey : IsBody key) (hws : IsSpaces ws)
    (rest : List Char) : skipKey (key ++ '"' :: (ws ++ ':' :: rest)) = .ok rest := by
  have hcolon : skipSpace (ws ++ ':' :: rest) = ':' :: rest :=
    skipSpace_spaces hws (by decide) _
  rw [skipKey, skipString_of_isBody hkey]
  simp only [hcolon]

/-- What the pass does at a part of a value. -/
def IsPassed : Part → List Char → Prop
  | .value, v => ∀ pending ws rest, IsSpaces ws → EndsNumber rest →
      skipFrom .value pending (ws ++ (v ++ rest)) = skipFrom .behind pending rest
  | .item b, item => ∀ outer rest, EndsNumber rest →
      skipFrom b.element (b :: outer) (item ++ rest) = skipFrom .behind (b :: outer) rest
  | .list b, items => ∀ outer rest,
      skipFrom b.element (b :: outer) (items ++ b.close :: rest) = skipFrom .behind outer rest

theorem Written.isPassed {part : Part} {cs : List Char} (h : Written part cs) :
    IsPassed part cs := by
  induction h with
  | word h =>
      intro pending ws rest hws _
      simp only [words, List.mem_cons, List.not_mem_nil, or_false] at h
      rcases h with rfl | rfl | rfl
      all_goals exact skipFrom_scalar pending hws (by decide) (by decide) (by decide) rfl
  | string h =>
      intro pending ws rest hws _
      exact skipFrom_scalar pending hws (by decide) (by decide) (by decide)
        (skipScalar_of_string h rest)
  | number h =>
      intro pending ws rest hws hend
      obtain ⟨c, tail, rfl, hc⟩ := h.exists_cons
      exact skipFrom_scalar pending hws (isSpace_of_starts hc)
        (ne_of_starts hc (by decide) (by decide)) (ne_of_starts hc (by decide) (by decide))
        (skipScalar_of_number h hc hend)
  | @empty b inner h =>
      intro pending ws rest hws _
      have hhead : skipSpace (inner ++ b.close :: rest) = b.close :: rest :=
        skipSpace_spaces h b.isSpace_close _
      rw [List.cons_append, skipFrom_bracket pending hws, List.append_assoc,
        List.singleton_append, skipFrom_opened b pending hhead, if_pos rfl]
  -- Behind the opening bracket the pass looks one character ahead and then starts over.
  | @bracket b items h ih =>
      intro pending ws rest hws _
      obtain ⟨c, tail, hhead, harray, hobject⟩ := h.head (b.close :: rest)
      have hopen : c ≠ b.close := by
        cases b
        · exact harray
        · exact hobject
      have hsame : skipSpace (c :: tail) = skipSpace (items ++ b.close :: rest) := by
        rw [hhead, skipSpace_cons (isSpace_of_skipSpace hhead)]
      rw [List.cons_append, skipFrom_bracket pending hws, List.append_assoc,
        List.singleton_append, skipFrom_opened b pending hhead, if_neg hopen,
        skipFrom_congr _ _ _ hsame]
      exact ih pending rest
  | @element before v after hbefore h hafter ih =>
      intro outer rest hend
      rw [List.append_assoc, List.append_assoc]
      show skipFrom .value _ _ = _
      rw [ih _ before _ hbefore (hend.spaces hafter)]
      exact skipFrom_congr _ _ _ (skipSpace_append hafter rest)
  | @member before key ws ws' v after hbefore hkey hws hws' h hafter ih =>
      intro outer rest hend
      have hhead : skipSpace (before ++ '"' :: (key ++ '"' :: (ws ++ ':' ::
          (ws' ++ (v ++ (after ++ rest)))))) = _ :=
        skipSpace_spaces hbefore (by decide) _
      simp only [List.append_assoc, List.cons_append]
      show skipFrom .key _ _ = _
      rw [skipFrom_key _ hhead, if_pos rfl, skipKey_of_isBody hkey hws]
      show skipFrom .value _ _ = _
      rw [ih _ ws' _ hws' (hend.spaces hafter)]
      exact skipFrom_congr _ _ _ (skipSpace_append hafter rest)
  | @one b item h ih =>
      intro outer rest
      rw [ih outer _ (endsNumber_close b rest)]
      exact skipFrom_close outer isSpaces_nil
  | @more b item items h hs ih ihs =>
      intro outer rest
      rw [List.append_assoc, List.cons_append, ih outer _ (endsNumber_comma _),
        skipFrom_behind b outer (skipSpace_cons (by decide) _), if_pos rfl]
      exact ihs outer rest

/-! ## What is passed over was written -/

theorem eq_append_of_word {es cs rest : List Char} (h : word es cs = .ok rest) :
    cs = es ++ rest := by
  induction es generalizing cs with
  | nil =>
      cases h
      rfl
  | cons e es ih =>
      cases cs with
      | nil => cases h
      | cons c cs =>
          rw [word] at h
          split at h
          · next hc => rw [hc, ih h, List.cons_append]
          · cases h

theorem written_of_word {c : Char} {es cs rest : List Char} (h : word es cs = .ok rest)
    (hword : (c :: es) ∈ words) : ∃ v, c :: cs = v ++ rest ∧ Written .value v := by
  refine ⟨c :: es, ?_, .word hword⟩
  rw [eq_append_of_word h, List.cons_append]

theorem written_of_skipScalar {c : Char} {cs rest : List Char} (h : skipScalar c cs = .ok rest) :
    ∃ v, c :: cs = v ++ rest ∧ Written .value v := by
  unfold skipScalar at h
  split at h
  · next hc =>
      obtain ⟨body, rfl, hbody⟩ := isBody_of_skipString h
      subst hc
      exact ⟨_, by simp, .string hbody⟩
  split at h
  · next hc =>
      subst hc
      exact written_of_word h (by decide)
  split at h
  · next hc =>
      subst hc
      exact written_of_word h (by decide)
  split at h
  · next hc =>
      subst hc
      exact written_of_word h (by decide)
  split at h
  · obtain ⟨v, n, hsplit, hv⟩ := writesNumber_of_skipNumber h
    exact ⟨v, hsplit, .number hv⟩
  · cases h

theorem isBody_of_skipKey {cs rest : List Char} (h : skipKey cs = .ok rest) :
    ∃ key ws, cs = key ++ '"' :: (ws ++ ':' :: rest) ∧ IsBody key ∧ IsSpaces ws := by
  unfold skipKey at h
  split at h
  · cases h
  · next tail hstring =>
      obtain ⟨key, rfl, hkey⟩ := isBody_of_skipString hstring
      split at h
      · next hcolon =>
          cases h
          obtain ⟨ws, hws, rfl⟩ := exists_spaces_of_skipSpace hcolon
          exact ⟨key, ws, rfl, hkey, hws⟩
      · cases h
      · cases h

/-- What stands in a bracket up to a comma or the end, but for the white space behind it. -/
def IsItemStart (b : Bracket) (item : List Char) : Prop :=
  ∀ after, IsSpaces after → Written (.item b) (item ++ after)

/-- White space may stand in front of an item, and so in front of a list of them. -/
theorem Written.spaces {b : Bracket} {items ws : List Char} (hws : IsSpaces ws)
    (h : Written (.list b) items) : Written (.list b) (ws ++ items) := by
  have item : ∀ item, Written (.item b) item → Written (.item b) (ws ++ item) := by
    intro item h
    cases h with
    | element hbefore hv hafter =>
        rw [← List.append_assoc]
        exact .element (hws.append hbefore) hv hafter
    | member hbefore hkey hcolon hws' hv hafter =>
        rw [← List.append_assoc]
        exact .member (hws.append hbefore) hkey hcolon hws' hv hafter
  cases h with
  | one h => exact .one (item _ h)
  | more h hs =>
      rw [← List.append_assoc]
      exact .more (item _ h) hs

/-- A text that closes the brackets of a stack, from the innermost on. -/
inductive Closes : List Bracket → List Char → List Char → Prop
  | nil {rest : List Char} : Closes [] rest rest
  | close {b : Bracket} {outer : List Bracket} {ws cs rest : List Char} (hws : IsSpaces ws)
      (h : Closes outer cs rest) : Closes (b :: outer) (ws ++ b.close :: cs) rest
  | comma {b : Bracket} {outer : List Bracket} {ws items cs rest : List Char} (hws : IsSpaces ws)
      (hitems : Written (.list b) items) (h : Closes outer cs rest) :
      Closes (b :: outer) (ws ++ ',' :: (items ++ b.close :: cs)) rest

theorem Closes.list {b : Bracket} {outer : List Bracket} {item cs rest : List Char}
    (hitem : IsItemStart b item) (h : Closes (b :: outer) cs rest) :
    ∃ items cs', item ++ cs = items ++ b.close :: cs' ∧ Written (.list b) items
      ∧ Closes outer cs' rest := by
  cases h with
  | @close _ _ ws cs' _ hws h =>
      exact ⟨item ++ ws, cs', by rw [List.append_assoc], .one (hitem ws hws), h⟩
  | @comma _ _ ws items cs' _ hws hitems h =>
      exact ⟨(item ++ ws) ++ ',' :: items, cs', by simp, .more (hitem ws hws) hitems, h⟩

/-- What a text has in front that was passed over from a place on. -/
def HasInFront : Place → List Bracket → List Char → List Char → Prop
  | .value, pending, cs, rest => ∃ ws v cs', cs = ws ++ (v ++ cs') ∧ IsSpaces ws
      ∧ Written .value v ∧ Closes pending cs' rest
  | .key, pending, cs, rest => ∃ item cs', cs = item ++ cs' ∧ IsItemStart .object item
      ∧ Closes pending cs' rest
  | .behind, pending, cs, rest => Closes pending cs rest
  | .opened, pending, cs, rest => ∃ b outer inner cs', pending = b :: outer
      ∧ cs = inner ++ b.close :: cs' ∧ (IsSpaces inner ∨ Written (.list b) inner)
      ∧ Closes outer cs' rest

theorem HasInFront.item {b : Bracket} {pending : List Bracket} {cs rest : List Char}
    (h : HasInFront b.element pending cs rest) :
    ∃ item cs', cs = item ++ cs' ∧ IsItemStart b item ∧ Closes pending cs' rest := by
  cases b with
  | array =>
      obtain ⟨ws, v, cs', rfl, hws, hv, hcloses⟩ := h
      refine ⟨ws ++ v, cs', (List.append_assoc _ _ _).symm, ?_, hcloses⟩
      intro after hafter
      rw [List.append_assoc]
      exact .element hws hv hafter
  | object => exact h

theorem HasInFront.bracket {b : Bracket} {pending : List Bracket} {ws cs rest : List Char}
    (h : HasInFront .opened (b :: pending) cs rest) (hws : IsSpaces ws) :
    HasInFront .value pending (ws ++ b.opening :: cs) rest := by
  obtain ⟨_, _, inner, cs', ⟨⟩, rfl, hinner, hcloses⟩ := h
  refine ⟨ws, b.opening :: (inner ++ [b.close]), cs', by simp, hws, ?_, hcloses⟩
  rcases hinner with hinner | hinner
  · exact .empty b hinner
  · exact .bracket hinner

theorem hasInFront_of_skipFrom {place : Place} {pending : List Bracket} {cs rest : List Char}
    (h : skipFrom place pending cs = .ok rest) : HasInFront place pending cs rest := by
  fun_induction skipFrom place pending cs with
  | case2 | case5 | case6 | case7 | case10 | case14 | case15 | case17 | case18 => cases h
  | case1 =>
      cases h
      exact .nil
  -- Behind a value in a bracket: another item after a comma, or the end of the bracket.
  | case3 cs b outer tail space ih =>
      obtain ⟨ws, hws, rfl⟩ := exists_spaces_of_skipSpace space
      obtain ⟨item, cs', rfl, hitem, hcloses⟩ := (ih h).item
      obtain ⟨items, cs'', hsplit, hitems, hcloses⟩ := hcloses.list hitem
      rw [hsplit]
      exact .comma hws hitems hcloses
  | case4 cs b outer tail space hcomma ih =>
      obtain ⟨ws, hws, rfl⟩ := exists_spaces_of_skipSpace space
      exact .close hws (ih h)
  -- Behind an opening bracket: its end, or a first item, whose white space is already gone.
  | case8 cs b outer tail space ih =>
      obtain ⟨ws, hws, rfl⟩ := exists_spaces_of_skipSpace space
      exact ⟨b, outer, ws, tail, rfl, rfl, Or.inl hws, ih h⟩
  | case9 cs b outer c tail space hclose ih =>
      obtain ⟨ws, hws, rfl⟩ := exists_spaces_of_skipSpace space
      obtain ⟨item, cs', hcs, hitem, hcloses⟩ := (ih h).item
      obtain ⟨items, cs'', hsplit, hitems, hcloses⟩ := hcloses.list hitem
      refine ⟨b, outer, ws ++ items, cs'', rfl, ?_, Or.inr (hitems.spaces hws), hcloses⟩
      rw [hcs, hsplit, List.append_assoc]
  | case11 pending cs tail space ih =>
      obtain ⟨ws, hws, rfl⟩ := exists_spaces_of_skipSpace space
      exact (ih h).bracket hws
  | case12 pending cs tail space _ ih =>
      obtain ⟨ws, hws, rfl⟩ := exists_spaces_of_skipSpace space
      exact (ih h).bracket hws
  | case13 pending cs c tail space harray hobject rest' hscalar ih =>
      obtain ⟨ws, hws, rfl⟩ := exists_spaces_of_skipSpace space
      obtain ⟨v, hsplit, hv⟩ := written_of_skipScalar hscalar
      exact ⟨ws, v, rest', by rw [hsplit], hws, hv, ih h⟩
  | case16 pending cs tail rest' hkey space ih =>
      obtain ⟨ws, hws, rfl⟩ := exists_spaces_of_skipSpace space
      obtain ⟨key, ws', rfl, hbody, hws'⟩ := isBody_of_skipKey hkey
      obtain ⟨ws'', v, cs', rfl, hws'', hv, hcloses⟩ := ih h
      refine ⟨ws ++ '"' :: (key ++ '"' :: (ws' ++ ':' :: (ws'' ++ v))), cs', by simp, ?_, hcloses⟩
      intro after hafter
      simp only [List.append_assoc, List.cons_append]
      exact .member hws hbody hws' hws'' hv hafter

/-- A text is passed over up to where a value with white space in front of it ends. -/
theorem written_of_skipValue {cs rest : List Char} (h : skipValue cs = .ok rest) :
    ∃ ws v, cs = ws ++ (v ++ rest) ∧ IsSpaces ws ∧ Written .value v := by
  obtain ⟨ws, v, cs', rfl, hws, hv, hcloses⟩ := hasInFront_of_skipFrom h
  cases hcloses
  exact ⟨ws, v, rfl, hws, hv⟩

theorem skipValue_of_written {ws v rest : List Char} (hws : IsSpaces ws) (h : Written .value v)
    (hend : EndsNumber rest) : skipValue (ws ++ (v ++ rest)) = .ok rest := by
  rw [skipValue, h.isPassed [] ws rest hws hend, skipFrom]

theorem skipValue_eq_nil_iff {cs : List Char} :
    skipValue cs = .ok [] ↔ ∃ ws v, cs = ws ++ v ∧ IsSpaces ws ∧ Written .value v := by
  constructor
  · intro h
    obtain ⟨ws, v, rfl, hws, hv⟩ := written_of_skipValue h
    exact ⟨ws, v, by rw [List.append_nil], hws, hv⟩
  · rintro ⟨ws, v, rfl, hws, hv⟩
    have hread := skipValue_of_written hws hv endsNumber_nil
    rwa [List.append_nil] at hread

end IdentityLine.Json
