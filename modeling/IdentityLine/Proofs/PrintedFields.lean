import IdentityLine.Proofs.CanonicalLine
import IdentityLine.Proofs.RunStages
import IdentityLine.Proofs.SignerSources

/-!
# Fields that are printed

The settings are checked for texts of which a canonical line would show nothing, and
a line shows what cleaning leaves. So whatever the settings say of a signer leaves a
field with something in it. What the settings do not say comes from the system, which
was never checked. An address from there has an at sign, which no cleaning takes
away. A name from there has a character that is not white space, and that is less
than the line asks for: cleaning also takes away control characters and brackets. A
user of the system with nothing else in the name, or none but these, is printed as an
empty field.

That is the only way to one.
-/

namespace IdentityLine

namespace Text

/-! ## What cleaning keeps -/

theorem mem_dropWhile {pad : Char → Bool} {c : Char} {cs : List Char} (h : c ∈ cs)
    (hc : pad c = false) : c ∈ cs.dropWhile pad := by
  induction cs with
  | nil => cases h
  | cons d cs ih =>
      rw [List.dropWhile_cons]
      split
      · next hd =>
          rcases List.mem_cons.mp h with rfl | h
          · rw [hc] at hd
            cases hd
          · exact ih h
      · exact h

/-- A character that is neither padding nor a delimiter stays. -/
theorem mem_clean {c : Char} {cs : List Char} (h : c ∈ cs) (hpad : isPadding c = false)
    (hdelimiter : isDelimiter c = false) : c ∈ clean cs := by
  have hfront : c ∈ (cs.dropWhile isPadding).reverse :=
    List.mem_reverse.mpr (mem_dropWhile h hpad)
  refine List.mem_filter.mpr ⟨List.mem_reverse.mpr (mem_dropWhile hfront hpad), ?_⟩
  rw [hdelimiter]
  rfl

/-- Something is left of a user at a host. -/
theorem sanitize_at (user host : String) : sanitize (user ++ "@" ++ host) ≠ "" := by
  intro hempty
  have hat : '@' ∈ clean (user ++ "@" ++ host).toList :=
    mem_clean (by simp) (by decide) (by decide)
  rw [← toList_sanitize, hempty] at hat
  cases hat

end Text

/-! ## Who is printed -/

/-- The first of three texts is the first, or the second, or both are missing and it is the last. -/
theorem orElse_orElse_eq_some {first second last : Option String} {text : String}
    (h : (first <|> second <|> last) = some text) :
    first = some text ∨ second = some text
      ∨ (first = none ∧ second = none ∧ last = some text) := by
  cases first with
  | some found => exact Or.inl h
  | none =>
      cases second with
      | some found => exact Or.inr (Or.inl h)
      | none => exact Or.inr (Or.inr ⟨rfl, rfl, h⟩)

namespace Settings

variable {s : Settings} (h : s.validate = .ok ()) {env : Environment} {host : HostReply}

include h

/-- Of the name of a signer nothing is shown exactly when it is the system's user and cleaning
leaves nothing of that. -/
theorem sanitize_name_iff {name : String} (hname : (s.user.signer env host).name = some name) :
    Text.sanitize name = "" ↔
      s.user.committerName = none ∧ s.user.name = none
        ∧ ∃ user, env.user? = some user ∧ Text.sanitize user = "" := by
  rcases orElse_orElse_eq_some hname with hset | hset | ⟨hcommitter, huser, hsystem⟩
  · have hshows : Text.sanitize name ≠ "" := sanitize_ne_of_validate h (by simp [hset])
    simp [hshows, hset]
  · have hshows : Text.sanitize name ≠ "" := sanitize_ne_of_validate h (by simp [hset])
    simp [hshows, hset]
  · have hsystem : env.user? = some name := hsystem
    simp [hcommitter, huser, hsystem]

/-- Of the address of a signer something is always shown. -/
theorem sanitize_email_ne {email : String} (hemail : (s.user.signer env host).email = some email) :
    Text.sanitize email ≠ "" := by
  rcases orElse_orElse_eq_some hemail with hset | hset | ⟨-, -, hsystem⟩
  · exact sanitize_ne_of_validate h (by simp [hset])
  · exact sanitize_ne_of_validate h (by simp [hset])
  · obtain ⟨user, -, rfl⟩ := Option.map_eq_some_iff.mp hsystem
    exact Text.sanitize_at user host.name

end Settings

/-- A committer whose settings pass the checks is printed with something in both fields, unless the
name is nowhere set and cleaning leaves nothing of the user that the system names; then the name is
empty, and the address still is not. -/
theorem printed_fields {s : Settings} (h : s.validate = .ok ()) {env : Environment}
    {host : HostReply} {zone : Zone} {clock : Clock} {time : TimeChoice} {text : String}
    (hprinted : Command.printed (s.user.signer env host) zone clock (.committer time false)
      = .ok text) :
    ∃ fields, LineFields.ofLine? text = some fields ∧ fields.email ≠ ""
      ∧ (fields.name = "" ↔ s.user.committerName = none ∧ s.user.name = none
        ∧ ∃ user, env.user? = some user ∧ Text.sanitize user = "") := by
  have hline := (Command.run_printSigner (s.user.signer env host) zone clock time
    fun i => Command.render i false).1
  have hprinted := hline.symm.trans hprinted
  cases hmade : Identity.ofOptions (s.user.signer env host) (time.millisBy clock)
      (time.offsetBy zone (time.millisBy clock)) with
  | error e =>
      rw [hmade] at hprinted
      cases hprinted
  | ok i =>
      rw [hmade] at hprinted
      have htext : i.line = text := Except.ok.inj hprinted
      subst htext
      obtain ⟨hname, hemail⟩ := of_ofOptions_eq_ok hmade
      exact ⟨_, Identity.ofLine?_line i, Settings.sanitize_email_ne h hemail,
        Settings.sanitize_name_iff h hname⟩

/-- With nothing set, the system's user is printed with what cleaning leaves. -/
theorem printed_fields_system :
    let s : Settings := {}
    let env := Environment.empty.set "USER" (some "<bo>".toUTF8.toList)
    let host := HostReply.ofName 0 "box".toUTF8.toList
    s.validate = .ok ()
      ∧ Command.printed (s.user.signer env host) .utc (.stopped 0) (.committer {} false)
        = .ok "bo <bo@box> 0 +0000"
      ∧ ∃ fields, LineFields.ofLine? "bo <bo@box> 0 +0000" = some fields ∧ fields.email ≠ "" := by
  intro s env host
  have hvalid : s.validate = .ok () := rfl
  have hprinted : Command.printed (s.user.signer env host) .utc (.stopped 0) (.committer {} false)
      = .ok "bo <bo@box> 0 +0000" := Settings.eq_ok_of_toOption (by decide +kernel)
  obtain ⟨fields, hfields, hemail, -⟩ := printed_fields hvalid hprinted
  exact ⟨hvalid, hprinted, fields, hfields, hemail⟩

/-- A user whose name is brackets is not white space, passes for a name, and is printed as an empty
one. -/
theorem printed_name_empty :
    let s : Settings := {}
    let env := Environment.empty.set "USER" (some "<>".toUTF8.toList)
    let host := HostReply.ofName 0 "box".toUTF8.toList
    s.validate = .ok () ∧ env.user? = some "<>"
      ∧ Command.printed (s.user.signer env host) .utc (.stopped 0) (.committer {} false)
        = .ok " <@box> 0 +0000"
      ∧ (LineFields.ofLine? " <@box> 0 +0000").map LineFields.name = some "" := by
  intro s env host
  exact ⟨rfl, by decide +kernel, Settings.eq_ok_of_toOption (by decide +kernel),
    by decide +kernel⟩

end IdentityLine
