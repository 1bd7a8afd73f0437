import IdentityLine.Proofs.ValueReaders

/-!
# What comes of an object

The reader of an object makes one pass with the fields found so far in its hands. A member
changes them as its key and its value say, whatever stands around it, and so what comes of
an object is what comes of its list of members.

In that list each field is on its own: it is filled by the one value under its key, and by
none where there is none or a second one. Members under other keys drop out of the list
before anything is said about the fields, and that holds of what is refused as well.
-/

namespace IdentityLine

open Json

namespace Json

/-! ## Members and elements -/

/-- A member of an object: its key, and its value as it is written. -/
structure Member where
  key : String
  value : List Char
deriving DecidableEq

/-- A member, written out with the white space around it. -/
inductive IsMember : List Char → Member → Prop
  | mk {before body ws ws' v after : List Char} {key : String} (hbefore : IsSpaces before)
      (hkey : SpellsText body key.toList) (hws : IsSpaces ws) (hws' : IsSpaces ws')
      (h : Written .value v) (hafter : IsSpaces after) :
      IsMember (before ++ '"' :: (body ++ '"' :: (ws ++ ':' :: (ws' ++ (v ++ after))))) ⟨key, v⟩

/-- A value, written out with the white space around it. -/
inductive IsElement : List Char → List Char → Prop
  | mk {before v after : List Char} (hbefore : IsSpaces before) (h : Written .value v)
      (hafter : IsSpaces after) : IsElement (before ++ (v ++ after)) v

/-- Things written out one after another, with a comma between them. -/
inductive Separated {α : Type} (Is : List Char → α → Prop) : List Char → List α → Prop
  | one {cs : List Char} {a : α} (h : Is cs a) : Separated Is cs [a]
  | more {cs cs' : List Char} {a : α} {as : List α} (h : Is cs a) (hs : Separated Is cs' as) :
      Separated Is (cs ++ ',' :: cs') (a :: as)

/-- A text that is a bracket with those things in it, and white space around it. -/
def IsBracketed {α : Type} (b : Bracket) (Is : List Char → α → Prop) (text : String)
    (as : List α) : Prop :=
  ∃ before inner after, text.toList = before ++ b.opening :: (inner ++ b.close :: after)
    ∧ IsSpaces before ∧ IsSpaces after ∧ (IsSpaces inner ∧ as = [] ∨ Separated Is inner as)

def IsObject (text : String) (ms : List Member) : Prop :=
  IsBracketed .object IsMember text ms

def IsArray (text : String) (vs : List (List Char)) : Prop :=
  IsBracketed .array IsElement text vs

/-- The values under a key, in their order. -/
def valuesOf (key : String) (ms : List Member) : List (List Char) :=
  (ms.filter (·.key = key)).map Member.value

theorem valuesOf_cons (key : String) (m : Member) (ms : List Member) :
    valuesOf key (m :: ms) = valuesOf key [m] ++ valuesOf key ms := by
  rw [← List.singleton_append, valuesOf, valuesOf, valuesOf, List.filter_append, List.map_append]

theorem valuesOf_singleton (key : String) (m : Member) :
    valuesOf key [m] = if m.key = key then [m.value] else [] := by
  by_cases h : m.key = key
  · rw [if_pos h, valuesOf, List.filter_cons_of_pos (by simpa using h)]
    rfl
  · rw [if_neg h, valuesOf, List.filter_cons_of_neg (by simpa using h)]
    rfl

end Json

namespace Identity

/-! ## What an identity is made of -/

/-- The keys of the fields, in the order of the fields. -/
def fieldNames : List String := ["name", "email_address", "when_millis", "tz_offset"]

/-- The members that are fields. -/
def fieldsOf (ms : List Member) : List Member :=
  ms.filter (·.key ∈ fieldNames)

/-- The members make an identity: each field is there once, with a value of its kind. -/
def AreFields (ms : List Member) (i : Identity) : Prop :=
  (∃ v, valuesOf "name" ms = [v] ∧ IsText v i.name)
    ∧ (∃ v, valuesOf "email_address" ms = [v] ∧ IsText v i.email)
    ∧ (∃ v, valuesOf "when_millis" ms = [v] ∧ IsMillis v i.millis)
    ∧ (∃ v, valuesOf "tz_offset" ms = [v] ∧ IsOffset v i.offset)

/-- The values of an array make an identity: the four fields in their order. -/
def AreValues (vs : List (List Char)) (i : Identity) : Prop :=
  ∃ name email millis offset, vs = [name, email, millis, offset]
    ∧ IsText name i.name ∧ IsText email i.email ∧ IsMillis millis i.millis
    ∧ IsOffset offset i.offset

/-! ## One field -/

/-- What the values under its key make of a field: it is kept when there are none, and filled by one
if it was empty. -/
inductive Fills {α : Type} (Is : List Char → α → Prop) :
    Option α → List (List Char) → Option α → Prop
  | keep (held : Option α) : Fills Is held [] held
  | put {v : List Char} {a : α} (h : Is v a) : Fills Is none [v] (some a)

section

variable {α : Type} {Is : List Char → α → Prop} {held held' : Option α}

theorem fills_nil_iff : Fills Is held [] held' ↔ held' = held := by
  constructor
  · intro h
    cases h
    rfl
  · rintro rfl
    exact .keep held'

theorem fills_singleton_iff {v : List Char} :
    Fills Is held [v] held' ↔ held = none ∧ ∃ a, Is v a ∧ held' = some a := by
  constructor
  · intro h
    cases h with
    | put h => exact ⟨rfl, _, h, rfl⟩
  · rintro ⟨rfl, a, h, rfl⟩
    exact .put h

theorem fills_some_iff {vs : List (List Char)} {a : α} :
    Fills Is none vs (some a) ↔ ∃ v, vs = [v] ∧ Is v a := by
  constructor
  · intro h
    cases h with
    | put h => exact ⟨_, rfl, h⟩
  · rintro ⟨v, rfl, h⟩
    exact .put h

/-- A field that is filled by one part of the values is filled by none of the rest. -/
theorem fills_append_iff {vs vs' : List (List Char)} :
    Fills Is held (vs ++ vs') held' ↔ ∃ between, Fills Is held vs between
      ∧ Fills Is between vs' held' := by
  constructor
  · intro h
    generalize hall : vs ++ vs' = all at h
    cases h with
    | keep =>
        obtain ⟨rfl, rfl⟩ := List.append_eq_nil_iff.mp hall
        exact ⟨held, .keep held, .keep held⟩
    | @put v a h =>
        rcases List.append_eq_singleton_iff.mp hall with ⟨rfl, rfl⟩ | ⟨rfl, rfl⟩
        · exact ⟨none, .keep none, .put h⟩
        · exact ⟨some a, .put h, .keep (some a)⟩
  · rintro ⟨between, h, h'⟩
    cases h with
    | keep => exact h'
    | put h =>
        cases h'
        exact .put h

end

/-! ## All fields -/

/-- What members make of the fields found so far. -/
def Fill (p : Partial) (ms : List Member) (q : Partial) : Prop :=
  Fills IsText p.name (valuesOf "name" ms) q.name
    ∧ Fills IsText p.email (valuesOf "email_address" ms) q.email
    ∧ Fills IsMillis p.millis (valuesOf "when_millis" ms) q.millis
    ∧ Fills IsOffset p.offset (valuesOf "tz_offset" ms) q.offset

theorem fill_nil_iff {p q : Partial} : Fill p [] q ↔ q = p := by
  constructor
  · rintro ⟨hname, hemail, hmillis, hoffset⟩
    cases q
    cases fills_nil_iff.mp hname
    cases fills_nil_iff.mp hemail
    cases fills_nil_iff.mp hmillis
    cases fills_nil_iff.mp hoffset
    rfl
  · rintro rfl
    exact ⟨.keep _, .keep _, .keep _, .keep _⟩

theorem fill_cons_iff {p q : Partial} {m : Member} {ms : List Member} :
    Fill p (m :: ms) q ↔ ∃ r, Fill p [m] r ∧ Fill r ms q := by
  simp only [Fill, valuesOf_cons _ m ms, fills_append_iff]
  constructor
  · rintro ⟨⟨name, hname, hname'⟩, ⟨email, hemail, hemail'⟩, ⟨millis, hmillis, hmillis'⟩,
      offset, hoffset, hoffset'⟩
    exact ⟨⟨name, email, millis, offset⟩, ⟨hname, hemail, hmillis, hoffset⟩,
      hname', hemail', hmillis', hoffset'⟩
  · rintro ⟨r, ⟨hname, hemail, hmillis, hoffset⟩, hname', hemail', hmillis', hoffset'⟩
    exact ⟨⟨_, hname, hname'⟩, ⟨_, hemail, hemail'⟩, ⟨_, hmillis, hmillis'⟩, _, hoffset, hoffset'⟩

theorem areFields_iff {ms : List Member} {i : Identity} :
    AreFields ms i ↔ ∃ q, Fill {} ms q ∧ q.complete = .ok i := by
  constructor
  · rintro ⟨hname, hemail, hmillis, hoffset⟩
    exact ⟨⟨i.name, i.email, i.millis, i.offset⟩, ⟨fills_some_iff.mpr hname,
      fills_some_iff.mpr hemail, fills_some_iff.mpr hmillis, fills_some_iff.mpr hoffset⟩, rfl⟩
  · rintro ⟨q, ⟨hname, hemail, hmillis, hoffset⟩, hcomplete⟩
    unfold Partial.complete at hcomplete
    split at hcomplete
    · cases hcomplete
      exact ⟨fills_some_iff.mp hname, fills_some_iff.mp hemail, fills_some_iff.mp hmillis,
        fills_some_iff.mp hoffset⟩
    · cases hcomplete

theorem complete_eq_error {q : Partial} {fault : Fault} (h : q.complete = .error fault) :
    fault = .mistyped := by
  unfold Partial.complete at h
  split at h
  · cases h
  · cases h
    rfl

/-! ## One member -/

theorem readColon_append {ws : List Char} (hws : IsSpaces ws) (cs : List Char) :
    readColon (ws ++ ':' :: cs) = .ok cs := by
  rw [readColon, skipSpace_spaces hws (by decide)]
  rfl

/-- What a member makes of the fields found so far, wherever it stands. -/
structure Takes (p : Partial) (m : Member) (outcome : Except Fault Partial) : Prop where
  reads : ∀ ws ws' rest, IsSpaces ws → IsSpaces ws' → EndsNumber rest →
    readMember p m.key.toList (ws ++ ':' :: (ws' ++ (m.value ++ rest))) =
      outcome.map fun q => (q, rest)
  isOk : ∀ q, outcome = .ok q ↔ Fill p [m] q
  isError : (m.key ∈ fieldNames → IsPlain m.value) →
    ∀ fault, outcome = .error fault → fault = .mistyped

theorem exists_takes_of_field {α : Type} {read : List Char → Except Fault (α × List Char)}
    {Is : List Char → α → Prop} (hread : IsReader read Is) {p : Partial} {m : Member}
    {held : Option α} {put : α → Partial} (hv : Written .value m.value)
    (hkey : m.key ∈ fieldNames)
    (hmember : ∀ cs, readMember p m.key.toList cs = readField held read put cs)
    (hfill : ∀ q, Fill p [m] q ↔ held = none ∧ ∃ a, Is m.value a ∧ q = put a) :
    ∃ outcome, Takes p m outcome := by
  obtain ⟨outcome, hjudges⟩ := hread.judges m.value hv
  cases held with
  | some a =>
      refine ⟨.error .mistyped, ?_, ?_, ?_⟩
      · intro ws ws' rest _ _ _
        rw [hmember]
        rfl
      · exact fun q => ⟨nofun, fun h => nomatch ((hfill q).mp h).1⟩
      · intro _ fault h
        cases h
        rfl
  | none =>
      refine ⟨outcome.map put, ?_, ?_, ?_⟩
      · intro ws ws' rest hws hws' hend
        have hvalue := hjudges.reads ws' rest hws' hend
        rw [hmember]
        simp only [readField, Option.isSome_none, Bool.false_eq_true, if_false,
          readColon_append hws, bind, Except.bind, hvalue]
        cases outcome with
        | error fault => rfl
        | ok a => rfl
      · intro q
        rw [map_eq_ok_iff, hfill]
        simp only [hjudges.isOk, true_and, eq_comm]
      · intro hplain fault h
        cases outcome with
        | error fault' =>
            cases h
            exact hjudges.isError (hplain hkey) fault rfl
        | ok a => cases h

/-- A member under another key changes nothing. -/
theorem takes_of_other {p : Partial} {m : Member} (hv : Written .value m.value)
    (hkey : m.key ∉ fieldNames) : Takes p m (.ok p) where
  reads := by
    intro ws ws' rest hws hws' hend
    simp only [fieldNames, List.mem_cons, List.not_mem_nil, or_false, not_or,
      ← String.toList_inj] at hkey
    obtain ⟨hname, hemail, hmillis, hoffset⟩ := hkey
    rw [readMember, if_neg hname, if_neg hemail, if_neg hmillis, if_neg hoffset]
    simp only [readColon_append hws, bind, Except.bind, skipValue_of_written hws' hv hend]
    rfl
  isOk := by
    intro q
    have hnil : Fill p [m] q ↔ Fill p [] q := by
      simp only [fieldNames, List.mem_cons, List.not_mem_nil, or_false, not_or] at hkey
      obtain ⟨hname, hemail, hmillis, hoffset⟩ := hkey
      simp only [Fill, valuesOf_singleton, if_neg hname, if_neg hemail, if_neg hmillis,
        if_neg hoffset]
      rfl
    rw [hnil, fill_nil_iff]
    exact ⟨fun h => (Except.ok.inj h).symm, fun h => congrArg _ h.symm⟩
  isError := fun _ _ => nofun

theorem exists_takes (p : Partial) {m : Member} (hv : Written .value m.value) :
    ∃ outcome, Takes p m outcome := by
  obtain ⟨key, v⟩ := m
  by_cases hname : key = "name"
  · subst hname
    have hmember : ∀ cs, readMember p "name".toList cs =
        readField p.name readText (fun v => { p with name := v }) cs := fun cs => rfl
    refine exists_takes_of_field isReader_readText hv List.mem_cons_self hmember ?_
    rintro ⟨name, email, millis, offset⟩
    simp only [Fill, valuesOf_singleton, String.reduceEq, if_true, if_false, fills_nil_iff,
      fills_singleton_iff, Partial.mk.injEq]
    grind
  by_cases hemail : key = "email_address"
  · subst hemail
    have hmember : ∀ cs, readMember p "email_address".toList cs =
        readField p.email readText (fun v => { p with email := v }) cs := fun cs => rfl
    refine exists_takes_of_field isReader_readText hv (by simp [fieldNames]) hmember ?_
    rintro ⟨name, email, millis, offset⟩
    simp only [Fill, valuesOf_singleton, String.reduceEq, if_true, if_false, fills_nil_iff,
      fills_singleton_iff, Partial.mk.injEq]
    grind
  by_cases hmillis : key = "when_millis"
  · subst hmillis
    have hmember : ∀ cs, readMember p "when_millis".toList cs =
        readField p.millis readMillis (fun v => { p with millis := v }) cs := fun cs => rfl
    refine exists_takes_of_field isReader_readMillis hv (by simp [fieldNames]) hmember ?_
    rintro ⟨name, email, millis, offset⟩
    simp only [Fill, valuesOf_singleton, String.reduceEq, if_true, if_false, fills_nil_iff,
      fills_singleton_iff, Partial.mk.injEq]
    grind
  by_cases hoffset : key = "tz_offset"
  · subst hoffset
    have hmember : ∀ cs, readMember p "tz_offset".toList cs =
        readField p.offset readOffset (fun v => { p with offset := v }) cs := fun cs => rfl
    refine exists_takes_of_field isReader_readOffset hv (by simp [fieldNames]) hmember ?_
    rintro ⟨name, email, millis, offset⟩
    simp only [Fill, valuesOf_singleton, String.reduceEq, if_true, if_false, fills_nil_iff,
      fills_singleton_iff, Partial.mk.injEq]
    grind
  refine ⟨_, takes_of_other hv ?_⟩
  simp only [fieldNames, List.mem_cons, List.not_mem_nil, or_false, not_or]
  exact ⟨hname, hemail, hmillis, hoffset⟩

/-- What a member on its own makes of the fields found so far. -/
def take (p : Partial) (m : Member) : Except Fault Partial :=
  (readMember p m.key.toList (':' :: m.value)).map Prod.fst

theorem takes_take (p : Partial) {m : Member} (hv : Written .value m.value) :
    Takes p m (take p m) := by
  obtain ⟨outcome, htakes⟩ := exists_takes p hv
  have halone := htakes.reads [] [] [] isSpaces_nil isSpaces_nil endsNumber_nil
  rw [List.nil_append, List.nil_append, List.append_nil] at halone
  have hsame : take p m = outcome := by
    rw [take, halone]
    cases outcome with
    | error fault => rfl
    | ok q => rfl
  rwa [hsame]

/-! ## All members -/

section

variable {ms : List Member} (hms : ∀ m ∈ ms, Written .value m.value)
include hms

theorem foldlM_take_eq_ok_iff {p q : Partial} : ms.foldlM take p = .ok q ↔ Fill p ms q := by
  induction ms generalizing p with
  | nil =>
      rw [fill_nil_iff]
      exact ⟨fun h => (Except.ok.inj h).symm, fun h => congrArg _ h.symm⟩
  | cons m ms ih =>
      obtain ⟨hm, hms⟩ := List.forall_mem_cons.mp hms
      rw [List.foldlM_cons, bind_eq_ok_iff, fill_cons_iff]
      exact exists_congr fun r => and_congr ((takes_take p hm).isOk r) (ih hms)

theorem foldlM_take_eq_error (hplain : ∀ m ∈ fieldsOf ms, IsPlain m.value) {p : Partial}
    {fault : Fault} (h : ms.foldlM take p = .error fault) : fault = .mistyped := by
  induction ms generalizing p with
  | nil => cases h
  | cons m ms ih =>
      obtain ⟨hm, hms⟩ := List.forall_mem_cons.mp hms
      rw [List.foldlM_cons] at h
      cases htake : take p m with
      | error fault' =>
          rw [htake] at h
          cases h
          refine (takes_take p hm).isError (fun hkey => hplain m ?_) fault htake
          exact List.mem_filter.mpr ⟨List.mem_cons_self, decide_eq_true hkey⟩
      | ok q =>
          rw [htake] at h
          refine ih hms (fun m' hm' => hplain m' ?_) h
          obtain ⟨hmem, hkey⟩ := List.mem_filter.mp hm'
          exact List.mem_filter.mpr ⟨List.mem_cons_of_mem m hmem, hkey⟩

theorem foldlM_take_fieldsOf (p : Partial) : (fieldsOf ms).foldlM take p = ms.foldlM take p := by
  induction ms generalizing p with
  | nil => rfl
  | cons m ms ih =>
      obtain ⟨hm, hms⟩ := List.forall_mem_cons.mp hms
      by_cases hkey : m.key ∈ fieldNames
      · rw [fieldsOf, List.filter_cons_of_pos (by simpa using hkey), List.foldlM_cons,
          List.foldlM_cons]
        exact congrArg _ (funext fun q => ih hms q)
      · have htake : take p m = .ok p := by
          rw [(takes_take p hm).isOk, ← (takes_of_other hm hkey).isOk]
        rw [fieldsOf, List.filter_cons_of_neg (by simpa using hkey), List.foldlM_cons, htake]
        exact ih hms p

end

/-! ## Objects -/

/-- What stands in front of a key, or of the brace that closes the object. -/
inductive Leads : Bool → List Char → Next → Prop
  | close {isFirst : Bool} {ws rest : List Char} (hws : IsSpaces ws) :
      Leads isFirst (ws ++ '\x7d' :: rest) (.close rest)
  | first {ws tail : List Char} (hws : IsSpaces ws) : Leads true (ws ++ '"' :: tail) (.key tail)
  | comma {ws before tail : List Char} (hws : IsSpaces ws) (hbefore : IsSpaces before) :
      Leads false (ws ++ ',' :: (before ++ '"' :: tail)) (.key tail)

theorem nextKey_eq_ok_iff {isFirst : Bool} {cs : List Char} {next : Next} :
    nextKey isFirst cs = .ok next ↔ Leads isFirst cs next := by
  constructor
  · intro h
    unfold nextKey at h
    split at h
    · cases h
    · next c rest space =>
        obtain ⟨ws, hws, rfl⟩ := exists_spaces_of_skipSpace space
        split at h
        · next hc =>
            subst hc
            cases h
            exact .close hws
        split at h
        · next hc =>
            obtain ⟨rfl, rfl⟩ := hc
            cases h
            exact .first hws
        split at h
        · next hc =>
            obtain ⟨rfl, hfirst⟩ := hc
            obtain rfl : isFirst = false := by simpa using hfirst
            split at h
            · cases h
            · next d rest' space' =>
                obtain ⟨before, hbefore, rfl⟩ := exists_spaces_of_skipSpace space'
                split at h
                · next hd =>
                    subst hd
                    cases h
                    exact .comma hws hbefore
                · cases h
        · cases h
  · intro h
    cases h with
    | close hws =>
        rw [nextKey, skipSpace_spaces hws (by decide)]
        rfl
    | first hws =>
        rw [nextKey, skipSpace_spaces hws (by decide)]
        rfl
    | @comma ws before tail hws hbefore =>
        have hquote : skipSpace (before ++ '"' :: tail) = '"' :: tail :=
          skipSpace_spaces hbefore (by decide) _
        rw [nextKey, skipSpace_spaces hws (by decide)]
        simp only [hquote]
        rfl

/-- A turn of the reader at a member, up to the white space behind it. -/
theorem readMembers_of_isMember {item : List Char} {m : Member} (h : IsMember item m) :
    ∃ before tail after, IsSpaces before ∧ IsSpaces after ∧ item = before ++ '"' :: tail
      ∧ ∀ isFirst p cs rest, EndsNumber rest → Leads isFirst cs (.key (tail ++ rest)) →
          readMembers isFirst p cs =
            take p m >>= fun q => readMembers false q (after ++ rest) := by
  cases h with
  | @mk before body ws ws' v after key hbefore hkey hws hws' hv hafter =>
      refine ⟨before, _, after, hbefore, hafter, rfl, ?_⟩
      intro isFirst p cs rest hend hleads
      have hnext := nextKey_eq_ok_iff.mpr hleads
      have hread := (takes_take p (m := ⟨key, v⟩) hv).reads ws ws' (after ++ rest) hws hws'
        (hend.spaces hafter)
      simp only [List.append_assoc, List.cons_append] at hnext
      rw [readMembers_of_nextKey p hnext (readString_of_spellsText hkey _), hread]
      cases take p ⟨key, v⟩ with
      | error fault => rfl
      | ok q => rfl

theorem readMembers_of_separated {inner : List Char} {ms : List Member}
    (h : Separated IsMember inner ms) (p : Partial) (rest : List Char) :
    readMembers true p (inner ++ '\x7d' :: rest) = (ms.foldlM take p).map (fun q => (q, rest))
      ∧ ∀ ws, IsSpaces ws → readMembers false p (ws ++ ',' :: (inner ++ '\x7d' :: rest)) =
          (ms.foldlM take p).map fun q => (q, rest) := by
  -- The first member has no comma before it, but the induction meets it as any other one.
  induction h generalizing p with
  | @one item m h =>
      obtain ⟨before, tail, after, hbefore, hafter, rfl, hturn⟩ := readMembers_of_isMember h
      have hend : EndsNumber ('\x7d' :: rest) := endsNumber_close .object rest
      have hlast : (take p m >>= fun q => readMembers false q (after ++ '\x7d' :: rest)) =
          ([m].foldlM take p).map fun q => (q, rest) := by
        simp only [readMembers_of_close _ (nextKey_eq_ok_iff.mpr (.close hafter)), List.foldlM_cons,
          List.foldlM_nil]
        cases take p m with
        | error fault => rfl
        | ok q => rfl
      rw [List.append_assoc, List.cons_append, ← hlast]
      constructor
      · exact hturn true p _ _ hend (.first hbefore)
      · exact fun ws hws => hturn false p _ _ hend (.comma hws hbefore)
  | @more item items m ms h hs ih =>
      obtain ⟨before, tail, after, hbefore, hafter, rfl, hturn⟩ := readMembers_of_isMember h
      have hend : EndsNumber (',' :: (items ++ '\x7d' :: rest)) := endsNumber_comma _
      have hnext : (take p m >>= fun q =>
            readMembers false q (after ++ ',' :: (items ++ '\x7d' :: rest))) =
          ((m :: ms).foldlM take p).map fun q => (q, rest) := by
        simp only [(ih _).2 after hafter, List.foldlM_cons]
        cases take p m with
        | error fault => rfl
        | ok q => rfl
      rw [List.append_assoc, List.append_assoc, List.cons_append, List.cons_append, ← hnext]
      constructor
      · exact hturn true p _ _ hend (.first hbefore)
      · exact fun ws hws => hturn false p _ _ hend (.comma hws hbefore)

theorem readValue_of_brace {before : List Char} (hbefore : IsSpaces before) (cs : List Char) :
    readValue (before ++ '\x7b' :: cs) =
      (readMembers true {} cs).bind fun r => r.1.complete.map fun i => (i, r.2) := by
  rw [readValue, skipSpace_spaces hbefore (by decide)]
  simp only [if_pos]
  cases readMembers true {} cs with
  | error fault => rfl
  | ok r =>
      show (r.1.complete >>= fun i => .ok (i, r.2)) = r.1.complete.map _
      cases r.1.complete with
      | error fault => rfl
      | ok i => rfl

/-- White space behind a text changes nothing. -/
theorem ofJson_of_readValue {text : String} {outcome : Except Fault Identity} {after : List Char}
    (hafter : IsSpaces after)
    (h : readValue text.toList = outcome.map fun i => (i, after)) : ofJson text = outcome := by
  have hend : skipSpace after = [] := by
    rw [← List.append_nil after, skipSpace_append hafter]
    rfl
  rw [ofJson, h]
  cases outcome with
  | error fault => rfl
  | ok i =>
      show (if (skipSpace after).isEmpty then _ else _) = _
      rw [hend]
      rfl

/-- What comes of an object is what comes of its members. -/
theorem ofJson_of_isObject {text : String} {ms : List Member} (h : IsObject text ms) :
    ofJson text = ms.foldlM take {} >>= Partial.complete := by
  obtain ⟨before, inner, after, htext, hbefore, hafter, hinner⟩ := h
  have hmembers : readMembers true {} (inner ++ '\x7d' :: after) =
      (ms.foldlM take {}).map fun q => (q, after) := by
    rcases hinner with ⟨hspaces, rfl⟩ | hinner
    · exact readMembers_of_close {} (nextKey_eq_ok_iff.mpr (.close hspaces))
    · exact (readMembers_of_separated hinner {} after).1
  apply ofJson_of_readValue hafter
  rw [htext]
  show readValue (before ++ '\x7b' :: (inner ++ '\x7d' :: after)) = _
  rw [readValue_of_brace hbefore, hmembers]
  cases ms.foldlM take {} with
  | error fault => rfl
  | ok q => rfl

theorem written_of_separated {inner : List Char} {ms : List Member}
    (h : Separated IsMember inner ms) : ∀ m ∈ ms, Written .value m.value := by
  have hmember : ∀ {cs m}, IsMember cs m → Written .value m.value := by
    intro cs m h
    cases h with
    | mk _ _ _ _ hv _ => exact hv
  induction h with
  | one h => exact List.forall_mem_singleton.mpr (hmember h)
  | more h hs ih => exact List.forall_mem_cons.mpr ⟨hmember h, ih⟩

theorem written_of_isObject {text : String} {ms : List Member} (h : IsObject text ms) :
    ∀ m ∈ ms, Written .value m.value := by
  obtain ⟨_, _, _, _, _, _, ⟨_, rfl⟩ | hinner⟩ := h
  · exact fun m hm => absurd hm List.not_mem_nil
  · exact written_of_separated hinner

theorem ofJson_eq_ok_iff_of_isObject {text : String} {ms : List Member} (h : IsObject text ms)
    {i : Identity} : ofJson text = .ok i ↔ AreFields ms i := by
  rw [ofJson_of_isObject h, bind_eq_ok_iff, areFields_iff]
  exact exists_congr fun q => and_congr_left fun _ => foldlM_take_eq_ok_iff (written_of_isObject h)

/-- Objects with the same fields in the same order come to the same, right or wrong. -/
theorem ofJson_congr {text text' : String} {ms ms' : List Member} (h : IsObject text ms)
    (h' : IsObject text' ms') (hsame : fieldsOf ms' = fieldsOf ms) :
    ofJson text' = ofJson text := by
  rw [ofJson_of_isObject h, ofJson_of_isObject h', ← foldlM_take_fieldsOf (written_of_isObject h),
    ← foldlM_take_fieldsOf (written_of_isObject h'), hsame]

/-- In an object in which nothing is amiss by itself, only a field can be wrong. -/
theorem ofJson_mistyped {text : String} {ms : List Member} (h : IsObject text ms)
    (hplain : ∀ m ∈ fieldsOf ms, IsPlain m.value) (hnone : ∀ i, ¬ AreFields ms i) :
    ofJson text = .error .mistyped := by
  cases hread : ofJson text with
  | ok i => exact absurd ((ofJson_eq_ok_iff_of_isObject h).mp hread) (hnone i)
  | error fault =>
      rw [ofJson_of_isObject h] at hread
      cases hfold : ms.foldlM take {} with
      | error fault' =>
          rw [hfold] at hread
          cases hread
          rw [foldlM_take_eq_error (written_of_isObject h) hplain hfold]
      | ok q =>
          rw [hfold] at hread
          rw [complete_eq_error hread]

end Identity

end IdentityLine
