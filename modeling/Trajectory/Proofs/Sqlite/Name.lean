import Trajectory.Sqlite.Name
/-!
# Names in different modes

The mode in which a database is opened decides what its name grants, and whether the name is
refused; which file the name stands for does not depend on it.
-/
namespace Trajectory.Sqlite.Name

/-- Settings leave two grants as they are, or make them one. -/
theorem narrow_cases {first second one two : Grant} {name value : String}
    (narrowed : narrow first name value = .ok one) (other : narrow second name value = .ok two) :
    one = first ∧ two = second ∨ one = two := by
  unfold narrow at narrowed other
  split at narrowed
  · next cache =>
    rw [if_pos cache] at other
    split at narrowed
    · next known =>
      rw [if_pos known] at other
      exact .inl ⟨(Except.ok.inj narrowed).symm, (Except.ok.inj other).symm⟩
    · contradiction
  · next cache =>
    rw [if_neg cache] at other
    split at narrowed
    · next mode =>
      rw [if_pos mode] at other
      cases word : Grant.ofWord? value with
      | none => simp [word] at narrowed
      | some grant =>
        simp only [word] at narrowed other
        split at narrowed
        · split at other
          · exact .inr ((Except.ok.inj narrowed).symm.trans (Except.ok.inj other))
          · contradiction
        · contradiction
    · next mode =>
      rw [if_neg mode] at other
      exact .inl ⟨(Except.ok.inj narrowed).symm, (Except.ok.inj other).symm⟩

/-- So do several settings. -/
theorem narrowAll_cases {first second one two : Grant} {settings : List (String × String)}
    (narrowed : narrowAll first settings = .ok one) (other : narrowAll second settings = .ok two) :
    one = first ∧ two = second ∨ one = two := by
  induction settings generalizing first second with
  | nil => exact .inl ⟨(Except.ok.inj narrowed).symm, (Except.ok.inj other).symm⟩
  | cons setting later ih =>
    obtain ⟨name, value⟩ := setting
    rw [narrowAll] at narrowed other
    cases here : narrow first name value with
    | error error => simp [here] at narrowed
    | ok middle =>
      cases there : narrow second name value with
      | error error => simp [there] at other
      | ok center =>
        rw [here] at narrowed
        rw [there] at other
        rcases narrow_cases here there with ⟨rfl, rfl⟩ | rfl
        · exact ih narrowed other
        · exact .inr (Except.ok.inj (narrowed.symm.trans other))

/-- Units stand for one file at all grants that are given by modes. -/
theorem ofUnits_path {mode other : Access} {units : List NameUnit} {name again : Name}
    (named : ofUnits (.ofAccess mode) units = .ok name)
    (also : ofUnits (.ofAccess other) units = .ok again) :
    again.path = name.path ∧ again.isApart = name.isApart := by
  have given (mode : Access) : Grant.ofAccess mode ≠ .memory := by
    cases mode <;> decide
  unfold ofUnits at named also
  dsimp only at named also
  split at named
  · contradiction
  · next narrowed first =>
    split at also
    · contradiction
    · next shrunk second =>
      have apart : decide (shrunk = Grant.memory) = decide (narrowed = Grant.memory) := by
        rcases narrowAll_cases first second with ⟨rfl, rfl⟩ | rfl
        · simp [given]
        · rfl
      split at named
      · next unsaid =>
        rw [unsaid] at also
        obtain rfl := Except.ok.inj named
        obtain rfl := Except.ok.inj also
        simp only [isApart, apart, and_self]
      · next system said =>
        rw [said] at also
        dsimp only at also
        split at named
        · next known =>
          rw [if_pos known] at also
          obtain rfl := Except.ok.inj named
          obtain rfl := Except.ok.inj also
          simp only [isApart, apart, and_self]
        · next unknown =>
          rw [if_neg unknown] at also
          split at named
          · next memory =>
            rw [if_pos memory] at also
            obtain rfl := Except.ok.inj named
            obtain rfl := Except.ok.inj also
            simp [isApart]
          · contradiction

/-- A text stands for one file in all modes in which it is a name. -/
theorem ofText_path {mode other : Access} {text : String} {name again : Name}
    (named : ofText mode text = .ok name) (also : ofText other text = .ok again) :
    again.path = name.path ∧ again.isApart = name.isApart := by
  have given (mode : Access) : decide (Grant.ofAccess mode = .memory) = false := by
    cases mode <;> rfl
  unfold ofText at named also
  dsimp only at named also
  split at named
  · next rest listed =>
    split at also
    · next further there =>
      obtain rfl : rest = further := by simpa using listed.symm.trans there
      split at named
      · next here =>
        rw [if_pos here] at also
        exact ofUnits_path named also
      · contradiction
    · next further elsewhere there =>
      obtain rfl : '/' :: '/' :: rest = further := by simpa using listed.symm.trans there
      exact absurd rfl (elsewhere rest)
    · next machine _ => exact absurd listed (machine rest)
  · next rest elsewhere listed =>
    split at also
    · next further there =>
      obtain rfl : rest = '/' :: '/' :: further := by simpa using listed.symm.trans there
      exact absurd rfl (elsewhere further)
    · next further _ there =>
      obtain rfl : rest = further := by simpa using listed.symm.trans there
      exact ofUnits_path named also
    · next others => exact absurd listed (others rest)
  · next machine others =>
    split at also
    · next further there => exact absurd there (machine further)
    · next further _ there => exact absurd there (others further)
    · obtain rfl := Except.ok.inj named
      obtain rfl := Except.ok.inj also
      simp [isApart, given]

end Trajectory.Sqlite.Name
