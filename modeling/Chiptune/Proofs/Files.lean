import Chiptune.Files

/-!
# `Chiptune.Proofs.Files`: what is written is read back

Writing a path walks to its place, and so does reading it. On the way only directories are entered,
and a text is never written in place of a directory. So the new file stands in nobody's way: what
could be walked before can be walked after (`Files.walk_put`), and the walk ends at the new file.

* `Files.readText_writeText`: the text that was written to a path is the one that is read from it.
-/

set_option autoImplicit false

namespace Chiptune.Files

variable {f written : Files} {place : List String} {entry : Entry}

/-- Text comes back from its bytes. -/
theorem decode_toUTF8 (text : String) : decode text.toUTF8 = .ok text := by
  have hvalid : String.fromUTF8? text.toUTF8 = some text := dif_pos text.isValidUTF8
  rw [decode, hvalid]

theorem entryAt?_nil (f : Files) : f.entryAt? [] = some .directory := rfl

theorem entryAt?_put_self (h : place ≠ []) : (f.put place entry).entryAt? place = some entry := by
  simp [entryAt?, put, h]

/-- At other places nothing changes. -/
theorem entryAt?_put_of_ne {other : List String} (h : other ≠ place) :
    (f.put place entry).entryAt? other = f.entryAt? other := by
  simp only [entryAt?, put]
  rw [List.find?_cons_of_neg (by simpa using h.symm), List.find?_filter]
  -- What is found under the other names was not filtered out.
  congr 3
  funext found
  by_cases hfound : found.1 = other
  · simp [hfound, h]
  · simp [hfound]

theorem enter_eq_ok_iff : f.enter place = .ok () ↔ f.entryAt? place = some .directory := by
  unfold enter
  split
  · next hnone => simp [hnone]
  · next hfile => simp [hfile]
  · next hdirectory => simp [hdirectory]

/-- A walk enters directories only, so it does not meet what takes the place of none. -/
theorem walk_put (hplace : f.entryAt? place ≠ some .directory) {names start stop : List String}
    (h : f.walk start names = .ok stop) : (f.put place entry).walk start names = .ok stop := by
  induction names generalizing start with
  | nil => exact h
  | cons name rest ih =>
    cases hdirectory : f.enter start with
    | error fault =>
      rw [walk, hdirectory] at h
      nomatch h
    | ok _ =>
      have hstart := enter_eq_ok_iff.mp hdirectory
      have hne : start ≠ place := by
        rintro rfl
        exact hplace hstart
      have hsame : (f.put place entry).enter start = .ok () := by
        rw [enter_eq_ok_iff, entryAt?_put_of_ne hne]
        exact hstart
      rw [walk, hdirectory] at h
      rw [walk, hsame]
      simp only [bind, Except.bind] at h ⊢
      -- The rest of the walk goes on from the same place in both.
      split
      · next hdot =>
        rw [if_pos hdot] at h
        exact ih h
      · next hdot =>
        rw [if_neg hdot] at h
        split
        · next hup =>
          rw [if_pos hup] at h
          exact ih h
        · next hup =>
          rw [if_neg hup] at h
          split
          · next hlong =>
            rw [if_pos hlong] at h
            nomatch h
          · next hlong =>
            rw [if_neg hlong] at h
            exact ih h

/-- The steps of a successful write. -/
theorem writeText_eq_ok {path text : String} (h : f.writeText path text = .ok written) :
    ∃ p place, Path.ofText path = .ok p ∧ p.asDirectory = false ∧
      f.walk (f.start p) p.names = .ok place ∧ f.entryAt? place ≠ some .directory ∧
      written = f.put place (.file text.toUTF8) := by
  unfold writeText at h
  simp only [bind, Except.bind, throw, throwThe, MonadExceptOf.throw, pure, Except.pure] at h
  cases hpath : Path.ofText path with
  | error fault => simp [hpath] at h
  | ok p =>
    simp only [hpath] at h
    cases hdirectory : p.asDirectory with
    | true =>
      simp only [hdirectory, if_true] at h
      split at h
      · nomatch h
      · split at h
        · nomatch h
        · nomatch h
    | false =>
      simp only [hdirectory, Bool.false_eq_true, if_false] at h
      cases hwalk : f.walk (f.start p) p.names with
      | error fault => simp [hwalk] at h
      | ok place =>
        simp only [hwalk] at h
        split at h
        · nomatch h
        · next hother =>
          exact ⟨p, place, rfl, hdirectory, hwalk, hother, (Except.ok.inj h).symm⟩

theorem readText_writeText {path text : String} (h : f.writeText path text = .ok written) :
    written.readText path = .ok text := by
  obtain ⟨p, place, hpath, hfile, hwalk, hplace, rfl⟩ := writeText_eq_ok h
  have hne : place ≠ [] := by
    rintro rfl
    exact hplace f.entryAt?_nil
  have hagain : (f.put place (.file text.toUTF8)).walk (f.start p) p.names = .ok place :=
    walk_put hplace hwalk
  have hbytes : (f.put place (.file text.toUTF8)).readBytes path = .ok text.toUTF8 := by
    unfold readBytes
    rw [hpath]
    show ((f.put place (.file text.toUTF8)).walk (f.start p) p.names >>= _) = _
    rw [hagain]
    simp only [bind, Except.bind, entryAt?_put_self hne, hfile]
    rfl
  rw [readText, hbytes]
  exact decode_toUTF8 text

end Chiptune.Files
