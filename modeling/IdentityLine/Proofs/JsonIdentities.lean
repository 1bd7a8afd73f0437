import IdentityLine.Proofs.JsonObjects

/-!
# Which JSON texts are an identity

An object is an identity when each of the four fields occurs in it once, with a value of
its kind. Its other members may hold any value and stand anywhere, and the fields may come
in any order. An array is one when it holds the four values in their order. There is no
other text that is an identity.

That there is no other takes the reader's word for nothing but that it came to an end: the
text is taken apart turn by turn, each turn leaving the next one its white space, and what
falls out is an object or an array. That it holds the right values need not be shown again
of an object, because what comes of one is known by then.
-/

namespace IdentityLine

open Json

namespace Identity

/-! ## Arrays -/

theorem readElements_eq (cs : List Char) :
    readElements cs = (nextElement true cs >>= readText) >>= fun name =>
      (nextElement false name.2 >>= readText) >>= fun email =>
      (nextElement false email.2 >>= readMillis) >>= fun millis =>
      (nextElement false millis.2 >>= readOffset) >>= fun offset =>
      match skipSpace offset.2 with
      | [] => .error .truncated
      | c :: rest =>
          if c = ']' then .ok (⟨name.1, email.1, millis.1, offset.1⟩, rest)
          else .error .malformed := by
  simp only [bind_assoc]
  rfl

theorem nextElement_first {before : List Char} (hbefore : IsSpaces before) {v : List Char}
    (hv : Written .value v) (rest : List Char) :
    nextElement true (before ++ (v ++ rest)) = .ok (v ++ rest) := by
  obtain ⟨c, tail, hhead, hclose, -⟩ := hv.head rest
  have hself := hv.skipSpace_append rest
  rw [hhead] at hself
  rw [nextElement, skipSpace_append hbefore, hhead]
  simp only [if_neg hclose, if_true]
  exact congrArg Except.ok hself

theorem nextElement_comma {ws before : List Char} (hws : IsSpaces ws) (hbefore : IsSpaces before)
    {v : List Char} (hv : Written .value v) (rest : List Char) :
    nextElement false (ws ++ ',' :: (before ++ (v ++ rest))) = .ok (v ++ rest) := by
  obtain ⟨c, tail, hhead, hclose, -⟩ := hv.head rest
  have hself := hv.skipSpace_append rest
  rw [hhead] at hself
  have hcomma : ',' ≠ ']' := by decide
  rw [nextElement, skipSpace_spaces hws (by decide)]
  simp only [if_neg hcomma, Bool.false_eq_true, if_false, if_true, skipSpace_append hbefore, hhead,
    if_neg hclose]
  exact congrArg Except.ok hself

theorem nextElement_eq_ok {isFirst : Bool} {cs tail : List Char}
    (h : nextElement isFirst cs = .ok tail) :
    ∃ ws, IsSpaces ws ∧ ((isFirst = true ∧ cs = ws ++ tail)
      ∨ (isFirst = false ∧ ∃ before, IsSpaces before ∧ cs = ws ++ ',' :: (before ++ tail))) := by
  unfold nextElement at h
  split at h
  · cases h
  · next c rest space =>
      obtain ⟨ws, hws, rfl⟩ := exists_spaces_of_skipSpace space
      refine ⟨ws, hws, ?_⟩
      split at h
      · cases h
      split at h
      · next hfirst =>
          cases h
          exact Or.inl ⟨hfirst, rfl⟩
      · next hfirst =>
          split at h
          · next hc =>
              subst hc
              split at h
              · cases h
              · next d rest' space' =>
                  obtain ⟨before, hbefore, rfl⟩ := exists_spaces_of_skipSpace space'
                  split at h
                  · cases h
                  · cases h
                    exact Or.inr ⟨Bool.eq_false_iff.mpr hfirst, before, hbefore, rfl⟩
          · cases h

section

variable {α : Type} {read : List Char → Except Fault (α × List Char)} {Is : List Char → α → Prop}

/-- An element of the kind that is wanted is read, up to the white space behind it. -/
theorem IsReader.element (hread : IsReader read Is) {item v : List Char} {a : α}
    (h : IsElement item v) (ha : Is v a) :
    ∃ after, IsSpaces after ∧ ∀ rest, EndsNumber rest →
      (nextElement true (item ++ rest) >>= read) = .ok (a, after ++ rest)
        ∧ ∀ ws, IsSpaces ws →
            (nextElement false (ws ++ ',' :: (item ++ rest)) >>= read) =
              .ok (a, after ++ rest) := by
  cases h with
  | @mk before v after hbefore hv hafter =>
      refine ⟨after, hafter, fun rest hend => ?_⟩
      have hvalue : read (v ++ (after ++ rest)) = .ok (a, after ++ rest) :=
        hread.eq_ok hv ha isSpaces_nil (hend.spaces hafter)
      rw [List.append_assoc, List.append_assoc, nextElement_first hbefore hv]
      refine ⟨hvalue, fun ws hws => ?_⟩
      rw [nextElement_comma hws hbefore hv]
      exact hvalue

theorem IsReader.value_of_element (hread : IsReader read Is) {isFirst : Bool}
    {cs rest : List Char} {a : α} (h : (nextElement isFirst cs >>= read) = .ok (a, rest)) :
    ∃ ws before v, IsSpaces ws ∧ IsSpaces before ∧ Written .value v ∧ Is v a
      ∧ cs = (if isFirst then [] else ws ++ [',']) ++ (before ++ (v ++ rest)) := by
  obtain ⟨tail, hnext, hvalue⟩ := bind_eq_ok_iff.mp h
  obtain ⟨ws', v, rfl, hws', hv, ha⟩ := hread.takes tail a rest hvalue
  obtain ⟨ws, hws, ⟨rfl, rfl⟩ | ⟨rfl, before, hbefore, rfl⟩⟩ := nextElement_eq_ok hnext
  · exact ⟨[], ws ++ ws', v, isSpaces_nil, hws.append hws', hv, ha, by simp⟩
  · exact ⟨ws, before ++ ws', v, hws, hbefore.append hws', hv, ha, by simp⟩

end

theorem isElement_of_array {text : String} {v₁ v₂ v₃ v₄ : List Char}
    (h : IsArray text [v₁, v₂, v₃, v₄]) :
    ∃ before e₁ e₂ e₃ e₄ after, IsSpaces before ∧ IsSpaces after
      ∧ IsElement e₁ v₁ ∧ IsElement e₂ v₂ ∧ IsElement e₃ v₃ ∧ IsElement e₄ v₄
      ∧ text.toList = before ++ '[' ::
          (e₁ ++ ',' :: (e₂ ++ ',' :: (e₃ ++ ',' :: (e₄ ++ ']' :: after)))) := by
  obtain ⟨before, inner, after, htext, hbefore, hafter, ⟨-, ⟨⟩⟩ | hinner⟩ := h
  obtain _ | ⟨h₁, _ | ⟨h₂, _ | ⟨h₃, h₄ | ⟨_, ⟨⟩⟩⟩⟩⟩ := hinner
  refine ⟨before, _, _, _, _, after, hbefore, hafter, h₁, h₂, h₃, h₄, ?_⟩
  rw [htext]
  simp only [List.append_assoc, List.cons_append]
  rfl

theorem readValue_of_bracket {before : List Char} (hbefore : IsSpaces before) (cs : List Char) :
    readValue (before ++ '[' :: cs) = readElements cs := by
  rw [readValue, skipSpace_spaces hbefore (by decide)]
  rfl

theorem ofJson_of_isArray {text : String} {vs : List (List Char)} (h : IsArray text vs)
    {i : Identity} (hvalues : AreValues vs i) : ofJson text = .ok i := by
  obtain ⟨v₁, v₂, v₃, v₄, rfl, hname, hemail, hmillis, hoffset⟩ := hvalues
  obtain ⟨before, e₁, e₂, e₃, e₄, after, hbefore, hafter, h₁, h₂, h₃, h₄, htext⟩ :=
    isElement_of_array h
  obtain ⟨a₁, ha₁, hread₁⟩ := isReader_readText.element h₁ hname
  obtain ⟨a₂, ha₂, hread₂⟩ := isReader_readText.element h₂ hemail
  obtain ⟨a₃, ha₃, hread₃⟩ := isReader_readMillis.element h₃ hmillis
  obtain ⟨a₄, ha₄, hread₄⟩ := isReader_readOffset.element h₄ hoffset
  have hclose : skipSpace (a₄ ++ Bracket.array.close :: after) = ']' :: after :=
    skipSpace_spaces ha₄ (by decide) _
  apply @ofJson_of_readValue text (.ok i) after hafter
  rw [htext, readValue_of_bracket hbefore, readElements_eq]
  refine bind_eq_ok_iff.mpr ⟨_, (hread₁ _ (endsNumber_comma _)).1, ?_⟩
  refine bind_eq_ok_iff.mpr ⟨_, (hread₂ _ (endsNumber_comma _)).2 a₁ ha₁, ?_⟩
  refine bind_eq_ok_iff.mpr ⟨_, (hread₃ _ (endsNumber_comma _)).2 a₂ ha₂, ?_⟩
  refine bind_eq_ok_iff.mpr ⟨_, (hread₄ _ (endsNumber_close .array after)).2 a₃ ha₃, ?_⟩
  simp only [hclose]
  rfl

/-! ## Nothing else is read -/

theorem isArray_of_readElements {cs rest : List Char} {i : Identity}
    (h : readElements cs = .ok (i, rest)) :
    ∃ inner vs, cs = inner ++ ']' :: rest ∧ Separated IsElement inner vs ∧ AreValues vs i := by
  rw [readElements_eq] at h
  obtain ⟨⟨name, cs₁⟩, hname, h⟩ := bind_eq_ok_iff.mp h
  obtain ⟨⟨email, cs₂⟩, hemail, h⟩ := bind_eq_ok_iff.mp h
  obtain ⟨⟨millis, cs₃⟩, hmillis, h⟩ := bind_eq_ok_iff.mp h
  obtain ⟨⟨offset, cs₄⟩, hoffset, h⟩ := bind_eq_ok_iff.mp h
  dsimp only at hname hemail hmillis hoffset h
  split at h
  · cases h
  · next c tail space =>
      obtain ⟨ws, hws, rfl⟩ := exists_spaces_of_skipSpace space
      split at h
      · next hc =>
          subst hc
          cases h
          obtain ⟨-, b₁, v₁, -, hb₁, hv₁, hi₁, rfl⟩ := isReader_readText.value_of_element hname
          obtain ⟨w₁, b₂, v₂, hw₁, hb₂, hv₂, hi₂, rfl⟩ := isReader_readText.value_of_element hemail
          obtain ⟨w₂, b₃, v₃, hw₂, hb₃, hv₃, hi₃, rfl⟩ :=
            isReader_readMillis.value_of_element hmillis
          obtain ⟨w₃, b₄, v₄, hw₃, hb₄, hv₄, hi₄, rfl⟩ :=
            isReader_readOffset.value_of_element hoffset
          refine ⟨_, [v₁, v₂, v₃, v₄], ?_, .more (.mk hb₁ hv₁ hw₁) (.more (.mk hb₂ hv₂ hw₂)
            (.more (.mk hb₃ hv₃ hw₃) (.one (.mk hb₄ hv₄ hws)))), v₁, v₂, v₃, v₄, rfl, hi₁, hi₂,
            hi₃, hi₄⟩
          simp
      · cases h

theorem spaces_of_readColon {cs rest : List Char} (h : readColon cs = .ok rest) :
    ∃ ws, IsSpaces ws ∧ cs = ws ++ ':' :: rest := by
  unfold readColon at h
  split at h
  · next space =>
      cases h
      exact exists_spaces_of_skipSpace space
  · cases h
  · cases h

/-- A value stands behind a key, after a colon. -/
def HasValue (cs rest : List Char) : Prop :=
  ∃ ws ws' v, cs = ws ++ ':' :: (ws' ++ (v ++ rest)) ∧ IsSpaces ws ∧ IsSpaces ws'
    ∧ Written .value v

theorem hasValue_of_readField {α : Type} {read : List Char → Except Fault (α × List Char)}
    {Is : List Char → α → Prop} (hread : IsReader read Is) {held : Option α} {put : α → Partial}
    {cs rest : List Char} {q : Partial} (h : readField held read put cs = .ok (q, rest)) :
    HasValue cs rest := by
  unfold readField at h
  split at h
  · cases h
  · obtain ⟨tail, hcolon, h⟩ := bind_eq_ok_iff.mp h
    obtain ⟨⟨a, rest'⟩, hvalue, h⟩ := bind_eq_ok_iff.mp h
    cases h
    obtain ⟨ws, hws, rfl⟩ := spaces_of_readColon hcolon
    obtain ⟨ws', v, rfl, hws', hv, -⟩ := hread.takes tail a rest hvalue
    exact ⟨ws, ws', v, rfl, hws, hws', hv⟩

theorem hasValue_of_readMember {p q : Partial} {key cs rest : List Char}
    (h : readMember p key cs = .ok (q, rest)) : HasValue cs rest := by
  unfold readMember at h
  split at h
  · exact hasValue_of_readField isReader_readText h
  split at h
  · exact hasValue_of_readField isReader_readText h
  split at h
  · exact hasValue_of_readField isReader_readMillis h
  split at h
  · exact hasValue_of_readField isReader_readOffset h
  obtain ⟨tail, hcolon, h⟩ := bind_eq_ok_iff.mp h
  obtain ⟨rest', hvalue, h⟩ := bind_eq_ok_iff.mp h
  cases h
  obtain ⟨ws, hws, rfl⟩ := spaces_of_readColon hcolon
  obtain ⟨ws', v, rfl, hws', hv⟩ := written_of_skipValue hvalue
  exact ⟨ws, ws', v, rfl, hws, hws', hv⟩

/-- The members that are left, and the end of the object. -/
def HasMembers : Bool → List Char → List Char → Prop
  | true, cs, rest => ∃ inner ms, cs = inner ++ '\x7d' :: rest
      ∧ (IsSpaces inner ∧ ms = [] ∨ Separated IsMember inner ms)
  | false, cs, rest => ∃ ws, IsSpaces ws ∧ (cs = ws ++ '\x7d' :: rest
      ∨ ∃ inner ms, cs = ws ++ ',' :: (inner ++ '\x7d' :: rest) ∧ Separated IsMember inner ms)

/-- A member that was read is one, with the white space that the next turn passes over. -/
theorem isMember_of_read {tail key cs rest before : List Char} (hbefore : IsSpaces before)
    (hkey : readString none tail = .ok (key, cs)) (hvalue : HasValue cs rest) :
    ∃ item m, before ++ '"' :: tail = item ++ rest
      ∧ ∀ after, IsSpaces after → IsMember (item ++ after) m := by
  obtain ⟨body, rfl, hbody⟩ := readString_eq_ok_iff.mp hkey
  obtain ⟨ws, ws', v, rfl, hws, hws', hv⟩ := hvalue
  refine ⟨before ++ '"' :: (body ++ '"' :: (ws ++ ':' :: (ws' ++ v))), ⟨String.ofList key, v⟩,
    by simp, ?_⟩
  intro after hafter
  rw [← @String.toList_ofList key] at hbody
  simp only [List.append_assoc, List.cons_append]
  exact .mk hbefore hbody hws hws' hv hafter

theorem HasMembers.separated {item cs rest : List Char} {m : Member}
    (hitem : ∀ after, IsSpaces after → IsMember (item ++ after) m)
    (h : HasMembers false cs rest) :
    ∃ inner ms, item ++ cs = inner ++ '\x7d' :: rest ∧ Separated IsMember inner ms := by
  obtain ⟨ws, hws, rfl | ⟨inner, ms, rfl, hinner⟩⟩ := h
  · exact ⟨item ++ ws, [m], by simp, .one (hitem ws hws)⟩
  · exact ⟨(item ++ ws) ++ ',' :: inner, m :: ms, by simp, .more (hitem ws hws) hinner⟩

theorem hasMembers_of_readMembers {isFirst : Bool} {p q : Partial} {cs rest : List Char}
    (h : readMembers isFirst p cs = .ok (q, rest)) : HasMembers isFirst cs rest := by
  fun_induction readMembers isFirst p cs with
  | case1 | case3 | case4 => cases h
  | case2 isFirst p cs rest hnext =>
      cases h
      obtain hws | _ | _ := nextKey_eq_ok_iff.mp hnext
      cases isFirst with
      | true => exact ⟨_, [], rfl, Or.inl ⟨hws, rfl⟩⟩
      | false => exact ⟨_, hws, Or.inl rfl⟩
  | case5 isFirst p cs tail hnext key after hkey q' rest' hmember ih =>
      have hvalue := hasValue_of_readMember hmember
      obtain _ | hws | ⟨hws, hbefore⟩ := nextKey_eq_ok_iff.mp hnext
      · obtain ⟨item, m, hsplit, hitem⟩ := isMember_of_read hws hkey hvalue
        obtain ⟨inner, ms, hinner, hms⟩ := (ih h).separated hitem
        exact ⟨inner, ms, by rw [hsplit, hinner], Or.inr hms⟩
      · obtain ⟨item, m, hsplit, hitem⟩ := isMember_of_read hbefore hkey hvalue
        obtain ⟨inner, ms, hinner, hms⟩ := (ih h).separated hitem
        exact ⟨_, hws, Or.inr ⟨inner, ms, by rw [hsplit, hinner], hms⟩⟩

theorem isObject_or_isArray_of_ofJson {text : String} {i : Identity} (h : ofJson text = .ok i) :
    (∃ ms, IsObject text ms) ∨ ∃ vs, IsArray text vs ∧ AreValues vs i := by
  obtain ⟨⟨i', after⟩, hvalue, hend⟩ := bind_eq_ok_iff.mp h
  dsimp only at hend
  split at hend
  · next hempty =>
      cases hend
      have hafter : IsSpaces after := by
        obtain ⟨ws, hws, hsplit⟩ := exists_spaces after
        rw [List.isEmpty_iff.mp hempty, List.append_nil] at hsplit
        rwa [hsplit]
      unfold readValue at hvalue
      split at hvalue
      · cases hvalue
      · next c tail space =>
          obtain ⟨before, hbefore, htext⟩ := exists_spaces_of_skipSpace space
          split at hvalue
          · next hc =>
              subst hc
              obtain ⟨⟨q, rest⟩, hmembers, hcomplete⟩ := bind_eq_ok_iff.mp hvalue
              obtain ⟨_, -, hput⟩ := bind_eq_ok_iff.mp hcomplete
              cases hput
              obtain ⟨inner, ms, rfl, hms⟩ := hasMembers_of_readMembers hmembers
              exact Or.inl ⟨ms, before, inner, after, htext, hbefore, hafter, hms⟩
          split at hvalue
          · next hc =>
              subst hc
              obtain ⟨inner, vs, rfl, hvs, hvalues⟩ := isArray_of_readElements hvalue
              exact Or.inr ⟨vs, ⟨before, inner, after, htext, hbefore, hafter, Or.inr hvs⟩, hvalues⟩
          · cases hvalue
  · cases hend

theorem ofJson_eq_ok_iff {text : String} {i : Identity} :
    ofJson text = .ok i ↔ (∃ ms, IsObject text ms ∧ AreFields ms i)
      ∨ ∃ vs, IsArray text vs ∧ AreValues vs i := by
  constructor
  · intro h
    -- What an object that was read holds is known from what comes of an object.
    rcases isObject_or_isArray_of_ofJson h with ⟨ms, hms⟩ | harray
    · exact Or.inl ⟨ms, hms, (ofJson_eq_ok_iff_of_isObject hms).mp h⟩
    · exact Or.inr harray
  · rintro (⟨ms, hms, hfields⟩ | ⟨vs, hvs, hvalues⟩)
    · exact (ofJson_eq_ok_iff_of_isObject hms).mpr hfields
    · exact ofJson_of_isArray hvs hvalues

theorem areValues_of_areFields {ms : List Member} {i : Identity} (h : AreFields ms i) :
    AreValues (fieldNames.flatMap fun key => valuesOf key ms) i := by
  obtain ⟨⟨v₁, h₁, hname⟩, ⟨v₂, h₂, hemail⟩, ⟨v₃, h₃, hmillis⟩, ⟨v₄, h₄, hoffset⟩⟩ := h
  refine ⟨v₁, v₂, v₃, v₄, ?_, hname, hemail, hmillis, hoffset⟩
  simp only [fieldNames, List.flatMap_cons, List.flatMap_nil, h₁, h₂, h₃, h₄]
  rfl

/-! ## The order of the fields -/

theorem valuesOf_fieldsOf {key : String} (hkey : key ∈ fieldNames) (ms : List Member) :
    valuesOf key (fieldsOf ms) = valuesOf key ms := by
  rw [valuesOf, valuesOf, fieldsOf, List.filter_filter]
  congr 1
  apply List.filter_congr
  intro m _
  simp only [Bool.and_eq_left_iff_imp, decide_eq_true_eq]
  rintro rfl
  exact hkey

/-- What stands once under a key stands there once in any order. -/
theorem valuesOf_of_perm {key : String} (hkey : key ∈ fieldNames) {ms ms' : List Member}
    (hperm : (fieldsOf ms').Perm (fieldsOf ms)) {v : List Char} (h : valuesOf key ms = [v]) :
    valuesOf key ms' = [v] := by
  rw [← valuesOf_fieldsOf hkey] at h ⊢
  have hvalues : (valuesOf key (fieldsOf ms')).Perm (valuesOf key (fieldsOf ms)) :=
    (hperm.filter _).map _
  rw [h] at hvalues
  exact List.perm_singleton.mp hvalues

theorem areFields_of_perm {ms ms' : List Member} (hperm : (fieldsOf ms').Perm (fieldsOf ms))
    {i : Identity} (h : AreFields ms i) : AreFields ms' i := by
  obtain ⟨⟨v₁, h₁, hname⟩, ⟨v₂, h₂, hemail⟩, ⟨v₃, h₃, hmillis⟩, ⟨v₄, h₄, hoffset⟩⟩ := h
  exact ⟨⟨v₁, valuesOf_of_perm (by decide) hperm h₁, hname⟩,
    ⟨v₂, valuesOf_of_perm (by decide) hperm h₂, hemail⟩,
    ⟨v₃, valuesOf_of_perm (by decide) hperm h₃, hmillis⟩,
    ⟨v₄, valuesOf_of_perm (by decide) hperm h₄, hoffset⟩⟩

/-! ## Which texts -/

/-- The JSON texts that are an identity, and what is wrong with an object that is none. -/
theorem json_text_is_identity_iff (text : String) :
    (∀ i, ofJson text = .ok i ↔ (∃ ms, IsObject text ms ∧ AreFields ms i)
        ∨ ∃ vs, IsArray text vs ∧ AreValues vs i)
      ∧ (∀ cs, skipValue cs = .ok [] ↔ ∃ ws v, cs = ws ++ v ∧ IsSpaces ws ∧ Written .value v)
      ∧ ∀ ms, IsObject text ms →
        (∀ i, ofJson text = .ok i ↔ AreFields ms i)
          ∧ (∀ text' ms', IsObject text' ms' → (fieldsOf ms').Perm (fieldsOf ms) →
              ∀ i, ofJson text' = .ok i ↔ ofJson text = .ok i)
          ∧ (∀ text' ms', IsObject text' ms' → fieldsOf ms' = fieldsOf ms →
              ofJson text' = ofJson text)
          ∧ ((∀ m ∈ fieldsOf ms, IsPlain m.value) → (∀ i, ¬ AreFields ms i) →
              ofJson text = .error .mistyped)
          ∧ ∀ text' i, AreFields ms i →
              IsArray text' (fieldNames.flatMap fun key => valuesOf key ms) →
              ofJson text' = .ok i := by
  refine ⟨fun i => ofJson_eq_ok_iff, fun cs => skipValue_eq_nil_iff, ?_⟩
  intro ms h
  refine ⟨fun i => ofJson_eq_ok_iff_of_isObject h, ?_, ?_, ofJson_mistyped h, ?_⟩
  · intro text' ms' h' hperm i
    rw [ofJson_eq_ok_iff_of_isObject h, ofJson_eq_ok_iff_of_isObject h']
    exact ⟨areFields_of_perm hperm.symm, areFields_of_perm hperm⟩
  · exact fun text' ms' h' hsame => ofJson_congr h h' hsame
  · exact fun text' i hfields harray => ofJson_of_isArray harray (areValues_of_areFields hfields)

theorem spellsText_of_plain {cs : List Char} (hplain : cs.flatMap escapeChar = cs) :
    SpellsText cs cs := by
  obtain ⟨body, hsplit, hbody⟩ := readString_eq_ok_iff.mp (readString_key hplain [])
  obtain rfl := List.append_cancel_right hsplit
  exact hbody

theorem isMember_of_plain {key : String} {v : List Char}
    (hplain : key.toList.flatMap escapeChar = key.toList) (hv : Written .value v) :
    IsMember ('"' :: (key.toList ++ '"' :: ':' :: v)) ⟨key, v⟩ := by
  have hmember := IsMember.mk isSpaces_nil (spellsText_of_plain hplain) isSpaces_nil isSpaces_nil
    hv isSpaces_nil
  rwa [List.append_nil] at hmember

theorem isText_of_plain {s : String} (hplain : s.toList.flatMap escapeChar = s.toList) :
    IsText ('"' :: (s.toList ++ ['"'])) s :=
  ⟨s.toList, rfl, spellsText_of_plain hplain⟩

/-! ### One identity in several texts -/

def nameMember : Member := ⟨"name", ['"', 'a', '"']⟩
def emailMember : Member := ⟨"email_address", ['"', 'b', '"']⟩
def millisMember : Member := ⟨"when_millis", ['-', '5']⟩
def offsetMember : Member := ⟨"tz_offset", ['6', '0']⟩

theorem written_name : Written .value nameMember.value :=
  .string (spellsText_of_plain (show ['a'].flatMap escapeChar = ['a'] by decide)).isBody

theorem written_email : Written .value emailMember.value :=
  .string (spellsText_of_plain (show ['b'].flatMap escapeChar = ['b'] by decide)).isBody

theorem written_millis : Written .value millisMember.value :=
  .number (.mk true (isWhole_digits 5) .absent .absent)

theorem written_offset : Written .value offsetMember.value :=
  .number (.mk false (isWhole_digits 60) .absent .absent)

/-- The fields in no order, one of them under an escaped key, and a number without a size among
them. -/
def shuffled : String :=
  "\x7b\"tz_offset\":60, \"x\":[1e999],\"n\\u0061me\":\"a\",\"when_millis\":-5,"
    ++ "\"email_address\":\"b\"\x7d"

def shuffledMembers : List Member :=
  [offsetMember, ⟨"x", ['[', '1', 'e', '9', '9', '9', ']']⟩, nameMember, millisMember, emailMember]

theorem isObject_shuffled : IsObject shuffled shuffledMembers := by
  have hhuge : WritesNumber ['1', 'e', '9', '9', '9'] ⟨false, ['1'], none, some (1 * 999)⟩ :=
    .mk false (isWhole_digits 1) .absent
      (.present (Or.inl rfl) .absent (isWhole_digits 999).someDigits)
  have hx : Written .value ['[', '1', 'e', '9', '9', '9', ']'] :=
    @Written.bracket .array _ (.one (.element isSpaces_nil (.number hhuge) isSpaces_nil))
  have hkey : SpellsText ['n', '\\', 'u', '0', '0', '6', '1', 'm', 'e'] "name".toList :=
    .verbatim (by decide) (by decide) (by decide)
      (@SpellsText.unit '0' '0' '6' '1' 97 _ _ (by decide) (by decide) (by decide)
        (spellsText_of_plain (show ['m', 'e'].flatMap escapeChar = ['m', 'e'] by decide)))
  have hspace : IsSpaces [' '] := by
    intro c hc
    cases List.mem_singleton.mp hc
    rfl
  have hinner : Separated IsMember _ shuffledMembers :=
    .more (isMember_of_plain (by decide) written_offset)
      (.more (.mk hspace (spellsText_of_plain (by decide)) isSpaces_nil isSpaces_nil hx
          isSpaces_nil)
        (.more (.mk isSpaces_nil hkey isSpaces_nil isSpaces_nil written_name isSpaces_nil)
          (.more (isMember_of_plain (by decide) written_millis)
            (.one (isMember_of_plain (by decide) written_email)))))
  exact ⟨[], _, [], rfl, isSpaces_nil, isSpaces_nil, Or.inr hinner⟩

theorem areFields_shuffled : AreFields shuffledMembers ⟨"a", "b", -5, 60⟩ := by
  refine ⟨⟨nameMember.value, by decide, @isText_of_plain "a" (by decide)⟩,
    ⟨emailMember.value, by decide, @isText_of_plain "b" (by decide)⟩,
    ⟨millisMember.value, by decide, ?_⟩, ⟨offsetMember.value, by decide, ?_⟩⟩
  · exact isInteger_iff.mpr (by decide)
  · exact isInteger_iff.mpr (by decide)

/-- The fields in their order, in the order they had without the rest, in an array, and one of them
alone. -/
theorem json_text_is_identity_shuffled :
    ofJson shuffled = .ok ⟨"a", "b", -5, 60⟩
      ∧ ofJson "\x7b\"name\":\"a\",\"email_address\":\"b\",\"when_millis\":-5,\"tz_offset\":60\x7d"
        = .ok ⟨"a", "b", -5, 60⟩
      ∧ ofJson "\x7b\"tz_offset\":60,\"name\":\"a\",\"when_millis\":-5,\"email_address\":\"b\"\x7d"
        = ofJson shuffled
      ∧ ofJson "[\"a\",\"b\",-5,60]" = .ok ⟨"a", "b", -5, 60⟩
      ∧ ofJson "\x7b\"name\":\"a\"\x7d" = .error .mistyped := by
  have hname := isMember_of_plain (show "name".toList.flatMap escapeChar = _ by decide) written_name
  have hemail :=
    isMember_of_plain (show "email_address".toList.flatMap escapeChar = _ by decide) written_email
  have hmillis :=
    isMember_of_plain (show "when_millis".toList.flatMap escapeChar = _ by decide) written_millis
  have hoffset :=
    isMember_of_plain (show "tz_offset".toList.flatMap escapeChar = _ by decide) written_offset
  have hall := (json_text_is_identity_iff shuffled).2.2 shuffledMembers isObject_shuffled
  obtain ⟨hread, hperm, hsame, -, harray⟩ := hall
  have hshuffled := (hread _).mpr areFields_shuffled
  refine ⟨hshuffled, ?_, ?_, ?_, ?_⟩
  · have hinner := Separated.more hname (.more hemail (.more hmillis (.one hoffset)))
    refine (hperm _ [nameMember, emailMember, millisMember, offsetMember]
      ⟨[], _, [], rfl, isSpaces_nil, isSpaces_nil, Or.inr hinner⟩ (by decide) _).mpr hshuffled
  · have hinner := Separated.more hoffset (.more hname (.more hmillis (.one hemail)))
    exact hsame _ [offsetMember, nameMember, millisMember, emailMember]
      ⟨[], _, [], rfl, isSpaces_nil, isSpaces_nil, Or.inr hinner⟩ (by decide)
  · have hvalues : (fieldNames.flatMap fun key => valuesOf key shuffledMembers) =
        [nameMember.value, emailMember.value, millisMember.value, offsetMember.value] := by decide
    have hinner : Separated IsElement _ _ :=
      .more (.mk isSpaces_nil written_name isSpaces_nil)
        (.more (.mk isSpaces_nil written_email isSpaces_nil)
          (.more (.mk isSpaces_nil written_millis isSpaces_nil)
            (.one (.mk isSpaces_nil written_offset isSpaces_nil))))
    refine harray _ _ areFields_shuffled ?_
    rw [hvalues]
    exact ⟨[], _, [], rfl, isSpaces_nil, isSpaces_nil, Or.inr hinner⟩
  · have hplain : IsPlain nameMember.value := (@isText_of_plain "a" (by decide)).isPlain
    have hnone : ∀ i, ¬ AreFields [nameMember] i := by
      rintro i ⟨-, ⟨v, hemail, -⟩, -⟩
      cases (show valuesOf "email_address" [nameMember] = [] by decide).symm.trans hemail
    have hone := (json_text_is_identity_iff "\x7b\"name\":\"a\"\x7d").2.2 [nameMember]
      ⟨[], _, [], rfl, isSpaces_nil, isSpaces_nil, Or.inr (.one hname)⟩
    exact hone.2.2.2.1 (fun m hm => List.mem_singleton.mp hm ▸ hplain) hnone

end Identity

end IdentityLine
