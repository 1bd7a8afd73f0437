import IdentityLine.Toml.Document

/-!
# No key of a document has two values

A document is put together line by line, and every line may go into tables that
earlier lines have made. What keeps a table a map is decided at one place: entries
change through `update`, which goes to the entry that has the key if there is one
and adds one only where there is none. So a table whose keys are distinct keeps
them distinct whatever the change is, and all that is asked of a change is that the
value it leaves is again made of such tables.

Such a table is a map: what stands under a key does not depend on the order of its
entries.

The rest carries this outwards, first along a path into the tables of a document,
then over the values between brackets, and then over lines. Values in brackets are
read by three functions that call each other with one unit of fuel less, so there
the induction is on the fuel and says the same of all three at once.
-/

namespace IdentityLine.Toml

/-! ## Values without double keys -/

/-- Whether a value holds no other values. -/
def Value.isLeaf : Value → Bool
  | .array _ _ => false
  | .table _ _ => false
  | _ => true

/-- No table in a value has two entries under one key. -/
inductive Value.Distinct : Value → Prop
  | leaf {v : Value} (h : v.isLeaf = true) : v.Distinct
  | array {ofTables : Bool} {vs : List Value} (h : ∀ v ∈ vs, v.Distinct) :
      (Value.array ofTables vs).Distinct
  | table {origin : Origin} {es : List (String × Value)} (keys : (es.map Prod.fst).Nodup)
      (values : ∀ e ∈ es, e.2.Distinct) : (Value.table origin es).Distinct

/-- No table in some entries has two entries under one key, and neither have they. -/
structure Entries.Distinct (es : Entries) : Prop where
  keys : (es.map Prod.fst).Nodup
  values : ∀ e ∈ es, e.2.Distinct

theorem Entries.distinct_nil : Entries.Distinct [] :=
  ⟨List.nodup_nil, fun _ h => absurd h List.not_mem_nil⟩

theorem Value.distinct_array {ofTables : Bool} {vs : List Value} :
    (Value.array ofTables vs).Distinct ↔ ∀ v ∈ vs, v.Distinct := by
  constructor
  · intro h
    cases h with
    | leaf h => cases h
    | array h => exact h
  · exact Value.Distinct.array

theorem Value.distinct_table {origin : Origin} {es : Entries} :
    (Value.table origin es).Distinct ↔ es.Distinct := by
  constructor
  · intro h
    cases h with
    | leaf h => cases h
    | table keys values => exact ⟨keys, values⟩
  · exact fun h => Value.Distinct.table h.keys h.values

theorem Entries.distinct_cons {k : String} {v : Value} {es : Entries} :
    Entries.Distinct ((k, v) :: es) ↔ k ∉ es.map Prod.fst ∧ v.Distinct ∧ es.Distinct := by
  constructor
  · rintro ⟨keys, values⟩
    obtain ⟨hk, hkeys⟩ := List.nodup_cons.mp keys
    exact ⟨hk, values _ List.mem_cons_self, hkeys, fun e he => values e (List.mem_cons_of_mem _ he)⟩
  · rintro ⟨hk, hv, hkeys, hvalues⟩
    refine ⟨List.nodup_cons.mpr ⟨hk, hkeys⟩, fun e he => ?_⟩
    rcases List.mem_cons.mp he with rfl | he
    · exact hv
    · exact hvalues e he

/-! ## Looking up entries -/

theorem Entries.get?_cons (e : String × Value) (es : Entries) (key : String) :
    Entries.get? (e :: es) key = if e.1 = key then some e.2 else es.get? key := by
  rw [Entries.get?, List.find?_cons]
  by_cases h : e.1 = key
  · rw [if_pos h, h, beq_self_eq_true]
    rfl
  · rw [if_neg h, beq_eq_false_iff_ne.mpr h]
    rfl

theorem Entries.get?_eq_none_iff {es : Entries} {key : String} :
    es.get? key = none ↔ key ∉ es.map Prod.fst := by
  induction es with
  | nil => exact ⟨fun _ => List.not_mem_nil, fun _ => rfl⟩
  | cons e es ih =>
      rw [Entries.get?_cons, List.map_cons, List.mem_cons, not_or]
      split
      · next h => exact ⟨nofun, fun hne => absurd h.symm hne.1⟩
      · next h => exact ⟨fun hnone => ⟨Ne.symm h, ih.mp hnone⟩, fun hne => ih.mpr hne.2⟩

theorem Entries.get?_eq_some_iff {es : Entries} (hes : (es.map Prod.fst).Nodup) {key : String}
    {v : Value} : es.get? key = some v ↔ (key, v) ∈ es := by
  induction es with
  | nil => exact ⟨nofun, fun h => absurd h List.not_mem_nil⟩
  | cons e es ih =>
      obtain ⟨hk, hrest⟩ := List.nodup_cons.mp hes
      rw [Entries.get?_cons, List.mem_cons]
      split
      · next h =>
          have hkey : ∀ w, (key, w) ∉ es := fun w hw => hk (h ▸ List.mem_map_of_mem hw)
          constructor
          · rintro ⟨⟩
            exact Or.inl (Prod.ext h.symm rfl)
          · rintro (rfl | hmem)
            · rfl
            · exact absurd hmem (hkey v)
      · next h =>
          rw [ih hrest]
          constructor
          · exact Or.inr
          · rintro (rfl | hmem)
            · exact absurd rfl h
            · exact hmem

theorem Entries.perm_sorted (es : Entries) : es.sorted.Perm es :=
  List.mergeSort_perm es _

theorem Entries.nodup_sorted {es : Entries} (hes : (es.map Prod.fst).Nodup) :
    (es.sorted.map Prod.fst).Nodup :=
  ((Entries.perm_sorted es).map Prod.fst).nodup_iff.mpr hes

theorem Entries.get?_perm {es es' : Entries} (hes : (es.map Prod.fst).Nodup) (hperm : es'.Perm es)
    (key : String) : es'.get? key = es.get? key := by
  have hes' : (es'.map Prod.fst).Nodup := (hperm.map Prod.fst).nodup_iff.mpr hes
  ext v
  rw [Entries.get?_eq_some_iff hes, Entries.get?_eq_some_iff hes', hperm.mem_iff]

theorem Entries.Distinct.of_perm {es es' : Entries} (hes : es.Distinct) (hperm : es'.Perm es) :
    es'.Distinct :=
  ⟨(hperm.map Prod.fst).nodup_iff.mpr hes.keys, fun e he => hes.values e (hperm.mem_iff.mp he)⟩

theorem Entries.distinct_get? {es : Entries} (hes : es.Distinct) (key : String) (v : Value)
    (h : es.get? key = some v) : v.Distinct :=
  hes.values _ ((Entries.get?_eq_some_iff hes.keys).mp h)

/-! ## Changing an entry -/

/-- What is asked of a change to a value that may be missing: it leaves a value without double keys,
given one or none. -/
def KeepsDistinct (change : Option Value → Option Value) : Prop :=
  ∀ old new, (∀ v, old = some v → v.Distinct) → change old = some new → new.Distinct

/-- No key comes in but the one whose value is changed. -/
theorem mem_keys_update {es es' : Entries} {key : String} {change : Option Value → Option Value}
    (h : update es key change = some es') {k : String} (hk : k ∈ es'.map Prod.fst) :
    k = key ∨ k ∈ es.map Prod.fst := by
  induction es generalizing es' with
  | nil =>
      obtain ⟨v, -, rfl⟩ := Option.map_eq_some_iff.mp h
      exact Or.inl (List.mem_singleton.mp hk)
  | cons e rest ih =>
      rw [update] at h
      split at h
      · obtain ⟨v, -, rfl⟩ := Option.map_eq_some_iff.mp h
        exact Or.inr hk
      · obtain ⟨rest', hrest, rfl⟩ := Option.map_eq_some_iff.mp h
        rcases List.mem_cons.mp hk with rfl | hk
        · exact Or.inr List.mem_cons_self
        · rcases ih hrest hk with hkey | hk
          · exact Or.inl hkey
          · exact Or.inr (List.mem_cons_of_mem _ hk)

theorem distinct_update {es es' : Entries} {key : String} {change : Option Value → Option Value}
    (hchange : KeepsDistinct change) (hes : es.Distinct) (h : update es key change = some es') :
    es'.Distinct := by
  induction es generalizing es' with
  | nil =>
      obtain ⟨v, hv, rfl⟩ := Option.map_eq_some_iff.mp h
      have hv : v.Distinct := hchange none v (fun _ hnone => nomatch hnone) hv
      exact Entries.distinct_cons.mpr ⟨List.not_mem_nil, hv, Entries.distinct_nil⟩
  | cons e rest ih =>
      obtain ⟨hk, hold, hrest⟩ := Entries.distinct_cons.mp hes
      rw [update] at h
      split at h
      · obtain ⟨v, hv, rfl⟩ := Option.map_eq_some_iff.mp h
        have hv : v.Distinct := hchange _ v (fun _ hsome => Option.some.inj hsome ▸ hold) hv
        exact Entries.distinct_cons.mpr ⟨hk, hv, hrest⟩
      · next hne =>
          obtain ⟨rest', hupdate, rfl⟩ := Option.map_eq_some_iff.mp h
          refine Entries.distinct_cons.mpr ⟨fun hmem => ?_, hold, ih hrest hupdate⟩
          rcases mem_keys_update hupdate hmem with hkey | hmem
          · exact hne hkey
          · exact hk hmem

/-- Every element of an array is left as it is but the last. -/
theorem distinct_updateLast {change : Value → Option Value}
    (hchange : ∀ v w, v.Distinct → change v = some w → w.Distinct) {vs vs' : List Value}
    (hvs : ∀ v ∈ vs, v.Distinct) (h : updateLast change vs = some vs') : ∀ v ∈ vs', v.Distinct := by
  fun_induction updateLast change vs generalizing vs' with
  | case1 => cases h
  | case2 v =>
      obtain ⟨w, hw, rfl⟩ := Option.map_eq_some_iff.mp h
      intro u hu
      rw [List.mem_singleton.mp hu]
      exact hchange v w (hvs v List.mem_cons_self) hw
  | case3 v w rest ih =>
      obtain ⟨rest', hrest, rfl⟩ := Option.map_eq_some_iff.mp h
      intro u hu
      rcases List.mem_cons.mp hu with rfl | hu
      · exact hvs u List.mem_cons_self
      · exact ih (fun x hx => hvs x (List.mem_cons_of_mem _ hx)) hrest u hu

/-! ## Going along a path -/

theorem distinct_alongPath {t : Traveller} {path : List String}
    {change : Origin → Entries → Option Entries}
    (hchange : ∀ o es es', Entries.Distinct es → change o es = some es' → Entries.Distinct es')
    {origin : Origin} {es es' : Entries} (hes : es.Distinct)
    (h : alongPath t path change origin es = some es') : es'.Distinct := by
  induction path generalizing origin es es' with
  | nil => exact hchange origin es es' hes h
  | cons key path ih =>
      refine distinct_update ?_ hes h
      intro old new hold hnew
      dsimp only at hnew
      split at hnew
      · obtain ⟨inner, hinner, rfl⟩ := Option.map_eq_some_iff.mp hnew
        exact Value.distinct_table.mpr (ih Entries.distinct_nil hinner)
      · next o inner =>
          split at hnew
          · obtain ⟨inner', hinner, rfl⟩ := Option.map_eq_some_iff.mp hnew
            exact Value.distinct_table.mpr (ih (Value.distinct_table.mp (hold _ rfl)) hinner)
          · cases hnew
      · next elements =>
          obtain ⟨elements', helements, rfl⟩ := Option.map_eq_some_iff.mp hnew
          refine Value.distinct_array.mpr
            (distinct_updateLast ?_ (Value.distinct_array.mp (hold _ rfl)) helements)
          intro v w hv hw
          split at hw
          · obtain ⟨inner', hinner, rfl⟩ := Option.map_eq_some_iff.mp hw
            exact Value.distinct_table.mpr (ih (Value.distinct_table.mp hv) hinner)
          · cases hw
      · cases hnew

theorem distinct_insertKey {path : List String} {key : String} {v : Value} {origin : Origin}
    {es es' : Entries} (hv : v.Distinct) (hes : es.Distinct)
    (h : insertKey path key v origin es = some es') : es'.Distinct := by
  refine distinct_alongPath ?_ hes h
  intro o inner inner' hinner hchange
  split at hchange
  · cases hchange
  · refine distinct_update ?_ hinner hchange
    intro old new _ hnew
    dsimp only at hnew
    split at hnew
    · cases hnew
      exact hv
    · cases hnew

theorem distinct_insertBelow {header path : List String} {key : String} {v : Value}
    {root root' : Entries} (hv : v.Distinct) (hroot : root.Distinct)
    (h : insertBelow header path key v root = some root') : root'.Distinct :=
  distinct_alongPath (fun _ _ _ hes hinsert => distinct_insertKey hv hes hinsert) hroot h

theorem distinct_openTable {path : List String} {key : String} {root root' : Entries}
    (hroot : root.Distinct) (h : openTable path key root = some root') : root'.Distinct := by
  refine distinct_alongPath ?_ hroot h
  intro _ inner inner' hinner hchange
  refine distinct_update ?_ hinner hchange
  intro old new hold hnew
  dsimp only at hnew
  split at hnew
  · cases hnew
    exact Value.distinct_table.mpr Entries.distinct_nil
  · cases hnew
    exact Value.distinct_table.mpr (Value.distinct_table.mp (hold _ rfl))
  · cases hnew

theorem distinct_openElement {path : List String} {key : String} {root root' : Entries}
    (hroot : root.Distinct) (h : openElement path key root = some root') : root'.Distinct := by
  have hempty : (Value.table .header []).Distinct := Value.distinct_table.mpr Entries.distinct_nil
  refine distinct_alongPath ?_ hroot h
  intro _ inner inner' hinner hchange
  refine distinct_update ?_ hinner hchange
  intro old new hold hnew
  dsimp only at hnew
  split at hnew
  · cases hnew
    refine Value.distinct_array.mpr fun v hv => ?_
    rw [List.mem_singleton.mp hv]
    exact hempty
  · cases hnew
    refine Value.distinct_array.mpr fun v hv => ?_
    rcases List.mem_append.mp hv with hv | hv
    · exact Value.distinct_array.mp (hold _ rfl) v hv
    · rw [List.mem_singleton.mp hv]
      exact hempty
  · cases hnew

/-! ## Reading values -/

theorem isLeaf_of_prefixed? {cs : List Char} {v : Value} (h : prefixed? cs = some v) :
    v.isLeaf = true := by
  have hbase : ∀ (isDigit : Char → Bool) (base : Nat) (ds : List Char),
      (do
        let ds ← ungrouped? isDigit false ds
        if !ds.all isDigit then none
        else if ds = [] then some Value.misspelt
        else some (.integer (valueIn base ds))) = some v → v.isLeaf = true := by
    intro isDigit base ds hv
    obtain ⟨ds', -, hv⟩ := Option.bind_eq_some_iff.mp hv
    split at hv
    · cases hv
    · split at hv
      · cases hv
        rfl
      · cases hv
        rfl
  unfold prefixed? at h
  split at h
  · exact hbase _ _ _ h
  · exact hbase _ _ _ h
  · exact hbase _ _ _ h
  · cases h

theorem isLeaf_of_integer? {cs : List Char} {v : Value} (h : integer? cs = some v) :
    v.isLeaf = true := by
  simp only [integer?] at h
  split at h
  · cases h
  · split at h
    · cases h
    · obtain ⟨ds, -, hv⟩ := Option.bind_eq_some_iff.mp h
      have hv := Option.some.inj hv
      subst hv
      split
      · rfl
      · rfl

theorem isLeaf_of_wordValue? {cs : List Char} {v : Value} (h : wordValue? cs = some v) :
    v.isLeaf = true := by
  rw [wordValue?] at h
  split at h
  · cases h
    rfl
  · split at h
    · cases h
      rfl
    · split at h
      · cases h
        rfl
      · simp only [Option.orElse_eq_orElse, Option.orElse_eq_or, Option.or_eq_some_iff] at h
        rcases h with h | ⟨-, h | ⟨-, h⟩⟩
        · exact isLeaf_of_prefixed? h
        · exact isLeaf_of_integer? h
        · obtain ⟨x, -, rfl⟩ := Option.map_eq_some_iff.mp h
          rfl

theorem distinct_value_step {fuel : Nat}
    (helements : ∀ {depth cs vs rest}, elements fuel depth cs = some (vs, rest) →
      ∀ v ∈ vs, Value.Distinct v)
    (hmembers : ∀ {depth es cs es' rest}, Entries.Distinct es →
      members fuel depth es cs = some (es', rest) → Entries.Distinct es')
    {depth : Nat} {cs : List Char} {v : Value} {rest : List Char}
    (h : value (fuel + 1) depth cs = some (v, rest)) : v.Distinct := by
  rw [value.eq_def] at h
  dsimp only at h
  split at h
  · split at h
    · cases h
    · obtain ⟨⟨vs, rest'⟩, hvs, heq⟩ := Option.map_eq_some_iff.mp h
      cases heq
      exact Value.distinct_array.mpr (helements hvs)
  · split at h
    · cases h
    · obtain ⟨⟨es, rest'⟩, hes, heq⟩ := Option.map_eq_some_iff.mp h
      cases heq
      exact Value.distinct_table.mpr (hmembers Entries.distinct_nil hes)
  · obtain ⟨⟨s, rest'⟩, -, heq⟩ := Option.map_eq_some_iff.mp h
    cases heq
    exact .leaf rfl
  · obtain ⟨⟨s, rest'⟩, -, heq⟩ := Option.map_eq_some_iff.mp h
    cases heq
    exact .leaf rfl
  · obtain ⟨w, hw, heq⟩ := Option.map_eq_some_iff.mp h
    cases heq
    exact .leaf (isLeaf_of_wordValue? hw)

theorem distinct_elements_step {fuel : Nat}
    (hvalue : ∀ {depth cs v rest}, value fuel depth cs = some (v, rest) → Value.Distinct v)
    (helements : ∀ {depth cs vs rest}, elements fuel depth cs = some (vs, rest) →
      ∀ v ∈ vs, Value.Distinct v)
    {depth : Nat} {cs : List Char} {vs : List Value} {rest : List Char}
    (h : elements (fuel + 1) depth cs = some (vs, rest)) : ∀ v ∈ vs, v.Distinct := by
  rw [elements.eq_def] at h
  dsimp only at h
  split at h
  · cases h
    exact fun v hv => absurd hv List.not_mem_nil
  · obtain ⟨⟨w, rest'⟩, hw, h⟩ := Option.bind_eq_some_iff.mp h
    dsimp only at h
    split at h
    · cases h
      exact fun v hv => List.mem_singleton.mp hv ▸ hvalue hw
    · obtain ⟨⟨ws, rest''⟩, hws, h⟩ := Option.bind_eq_some_iff.mp h
      cases h
      intro v hv
      rcases List.mem_cons.mp hv with rfl | hv
      · exact hvalue hw
      · exact helements hws v hv
    · cases h

theorem distinct_members_step {fuel : Nat}
    (hvalue : ∀ {depth cs v rest}, value fuel depth cs = some (v, rest) → Value.Distinct v)
    (hmembers : ∀ {depth es cs es' rest}, Entries.Distinct es →
      members fuel depth es cs = some (es', rest) → Entries.Distinct es')
    {depth : Nat} {es es' : Entries} {cs rest : List Char} (hes : es.Distinct)
    (h : members (fuel + 1) depth es cs = some (es', rest)) : es'.Distinct := by
  rw [members.eq_def] at h
  dsimp only at h
  split at h
  · cases h
    exact hes
  · obtain ⟨⟨⟨path, name⟩, rest₁⟩, -, h⟩ := Option.bind_eq_some_iff.mp h
    obtain ⟨rest₂, -, h⟩ := Option.bind_eq_some_iff.mp h
    obtain ⟨⟨v, rest₃⟩, hv, h⟩ := Option.bind_eq_some_iff.mp h
    obtain ⟨es₁, hinsert, h⟩ := Option.bind_eq_some_iff.mp h
    have hes₁ : es₁.Distinct := distinct_insertKey (hvalue hv) hes hinsert
    dsimp only at h
    split at h
    · cases h
      exact hes₁
    · exact hmembers hes₁ h
    · cases h

/-- What stands between brackets has no double keys, whatever the fuel. -/
theorem distinct_bracketed (fuel : Nat) :
    (∀ {depth cs v rest}, value fuel depth cs = some (v, rest) → Value.Distinct v)
    ∧ (∀ {depth cs vs rest}, elements fuel depth cs = some (vs, rest) →
        ∀ v ∈ vs, Value.Distinct v)
    ∧ ∀ {depth es cs es' rest}, Entries.Distinct es →
        members fuel depth es cs = some (es', rest) → Entries.Distinct es' := by
  induction fuel with
  | zero =>
      refine ⟨fun h => ?_, fun h => ?_, fun _ h => ?_⟩
      · rw [value] at h
        cases h
      · rw [elements] at h
        cases h
      · rw [members] at h
        cases h
  | succ fuel ih =>
      obtain ⟨hvalue, helements, hmembers⟩ := ih
      exact ⟨distinct_value_step helements hmembers, distinct_elements_step hvalue helements,
        distinct_members_step hvalue hmembers⟩

/-! ## Reading lines -/

theorem distinct_header {draft draft' : Draft} {cs rest : List Char} (hroot : draft.root.Distinct)
    (h : header draft cs = some (draft', rest)) : draft'.root.Distinct := by
  rw [header.eq_def] at h
  split at h
  · obtain ⟨⟨⟨path, name⟩, rest₁⟩, -, h⟩ := Option.bind_eq_some_iff.mp h
    obtain ⟨rest₂, -, h⟩ := Option.bind_eq_some_iff.mp h
    obtain ⟨rest₃, -, h⟩ := Option.bind_eq_some_iff.mp h
    obtain ⟨root, hopen, h⟩ := Option.bind_eq_some_iff.mp h
    cases h
    exact distinct_openElement hroot hopen
  · obtain ⟨⟨⟨path, name⟩, rest₁⟩, -, h⟩ := Option.bind_eq_some_iff.mp h
    obtain ⟨rest₂, -, h⟩ := Option.bind_eq_some_iff.mp h
    obtain ⟨root, hopen, h⟩ := Option.bind_eq_some_iff.mp h
    cases h
    exact distinct_openTable hroot hopen

theorem distinct_entry {draft draft' : Draft} {cs rest : List Char} (hroot : draft.root.Distinct)
    (h : entry draft cs = some (draft', rest)) : draft'.root.Distinct := by
  rw [entry] at h
  obtain ⟨⟨⟨path, name⟩, rest₁⟩, -, h⟩ := Option.bind_eq_some_iff.mp h
  obtain ⟨rest₂, -, h⟩ := Option.bind_eq_some_iff.mp h
  obtain ⟨⟨v, rest₃⟩, hv, h⟩ := Option.bind_eq_some_iff.mp h
  obtain ⟨root, hinsert, h⟩ := Option.bind_eq_some_iff.mp h
  cases h
  exact distinct_insertBelow ((distinct_bracketed _).1 hv) hroot hinsert

/-- A line leaves a document without double keys if it was one, so all lines do. -/
theorem distinct_lines {fuel : Nat} {draft draft' : Draft} {cs : List Char}
    (hroot : draft.root.Distinct) (h : lines fuel draft cs = some draft') :
    draft'.root.Distinct := by
  induction fuel generalizing draft cs with
  | zero =>
      rw [lines] at h
      cases h
  | succ fuel ih =>
      rw [lines] at h
      split at h
      · cases h
        exact hroot
      · split at h
        · obtain ⟨⟨draft₁, rest₁⟩, hheader, h⟩ := Option.bind_eq_some_iff.mp h
          obtain ⟨rest₂, -, h⟩ := Option.bind_eq_some_iff.mp h
          exact ih (distinct_header hroot hheader) h
        · split at h
          · obtain ⟨rest₁, -, h⟩ := Option.bind_eq_some_iff.mp h
            exact ih hroot h
          · obtain ⟨⟨draft₁, rest₁⟩, hentry, h⟩ := Option.bind_eq_some_iff.mp h
            obtain ⟨rest₂, -, h⟩ := Option.bind_eq_some_iff.mp h
            exact ih (distinct_entry hroot hentry) h

/-- A document is a map: no table of it gives a key two values. -/
theorem distinct_parse {text : String} {es : Entries} (h : parse text = some es) :
    es.Distinct := by
  obtain ⟨draft, hlines, rfl⟩ := Option.map_eq_some_iff.mp h
  exact distinct_lines Entries.distinct_nil hlines

end IdentityLine.Toml
