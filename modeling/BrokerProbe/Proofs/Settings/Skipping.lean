import BrokerProbe.Proofs.Json.Unambiguous
import BrokerProbe.Proofs.Text.Numeral
import BrokerProbe.Settings.Reader
/-!
# Passing over a value

A value of an unknown member is passed over up to its end, whatever it is and
however deep it nests: what follows it is read as if the value had not been there.
-/

namespace BrokerProbe

namespace Settings

theorem isJsonBlank_of_mem {c : Char} (h : c ∈ Json.blanks) : isJsonBlank c = true := by
  have hall : forall c, c ∈ Json.blanks -> isJsonBlank c = true := by
    simp [Json.blanks, isJsonBlank]
  exact hall c h

theorem not_isJsonBlank_of_not_mem {c : Char} (h : c ∉ Json.blanks) : isJsonBlank c = false := by
  simp only [Json.blanks, List.mem_cons, List.not_mem_nil, or_false, not_or] at h
  simp [isJsonBlank, h]

theorem literalRest?_of_isDigit {c : Char} (h : c.isDigit = true) : literalRest? c = none := by
  unfold literalRest?
  split
  · cases h
  · cases h
  · cases h
  · rfl

namespace Reader

theorem run_cons_of_step {reader next : Reader} {c : Char} (h : reader.step c = .ok next)
    (cs : List Char) : reader.run (c :: cs) = next.run cs := by
  rw [run_cons, h]
  rfl

def Place.awaitsToken : Place -> Bool
  | .start => true
  | .firstKey => true
  | .nextKey => true
  | .colon _ => true
  | .value _ => true
  | .afterMember => true
  | .firstElement => true
  | .nextElement _ => true
  | .afterElement _ => true
  | .finished => true
  | .skip { place := .value, frames := _ } => true
  | .skip { place := .key, frames := _ } => true
  | .skip { place := .colon, frames := _ } => true
  | .skip { place := .opened, frames := _ :: _ } => true
  | .skip { place := .after, frames := _ :: _ } => true
  | _ => false

theorem step_blank {reader : Reader} (h : reader.place.awaitsToken = true) {c : Char}
    (hc : isJsonBlank c = true) : reader.step c = .ok reader := by
  rcases reader with ⟨switches, met, place⟩
  have hplace : place.awaitsToken = true := h
  unfold Place.awaitsToken at hplace
  split at hplace
  all_goals first
    | exact absurd hplace Bool.false_ne_true
    | simp [step, stepKnown, stepAfterMember, stepSkip, Skip.step, Skip.stepValue, Skip.stepKey,
        Skip.stepOpened, Skip.stepAfter, move, hc]

theorem run_blanks {reader : Reader} (hreader : reader.place.awaitsToken = true)
    {text rest : List Char} (h : Json.Blanks text rest) : reader.run text = reader.run rest := by
  induction h with
  | none => rfl
  | more hblank _ ih => rw [run_cons_of_step (step_blank hreader (isJsonBlank_of_mem hblank)), ih]

theorem run_scan {care : Text.Care} (inside : Text.Scan -> Reader)
    (close : List Char -> Except Defect Reader)
    (hstep : forall scan c, (inside scan).step c =
      match scan.step care c with
      | .more next => .ok (inside next)
      | .closed content => close content
      | .malformed => .error .malformed)
    {scan : Text.Scan} {text content rest : List Char}
    (h : scan.run? care text = some (content, rest)) :
    (inside scan).run text = close content >>= fun next => next.run rest := by
  induction text generalizing scan with
  | nil => cases h
  | cons c text ih =>
      rw [run_cons, hstep]
      rw [Text.Scan.run?] at h
      cases hread : scan.step care c with
      | more next =>
          rw [hread] at h
          exact ih h
      | closed taken =>
          rw [hread] at h
          cases h
          rfl
      | malformed =>
          rw [hread] at h
          cases h

def passing (reader : Reader) (place : SkipPlace) (frames : List Frame) : Reader :=
  { reader with place := .skip { place, frames } }

def passed (reader : Reader) : List Frame -> Reader
  | [] => { reader with place := .afterMember }
  | frame :: outer => reader.passing .after (frame :: outer)

variable (reader : Reader) (frames : List Frame)

theorem awaitsToken_passed : (reader.passed frames).place.awaitsToken = true := by
  cases frames <;> rfl

/-!
# Scalars
-/

theorem run_passing_null (rest : List Char) :
    (reader.passing .value frames).run ('n' :: 'u' :: 'l' :: 'l' :: rest) =
      (reader.passed frames).run rest := by
  cases frames <;> rfl

theorem run_passing_true (rest : List Char) :
    (reader.passing .value frames).run ('t' :: 'r' :: 'u' :: 'e' :: rest) =
      (reader.passed frames).run rest := by
  cases frames <;> rfl

theorem run_passing_false (rest : List Char) :
    (reader.passing .value frames).run ('f' :: 'a' :: 'l' :: 's' :: 'e' :: rest) =
      (reader.passed frames).run rest := by
  cases frames <;> rfl

theorem run_passing_text {units : List Nat} {text rest : List Char}
    (h : Text.Spelled units text rest) :
    (reader.passing .value frames).run ('"' :: text) = (reader.passed frames).run rest := by
  rcases h.exists_run?_skipped [] with ⟨content, hscan⟩
  have hopen : (reader.passing .value frames).step '"' =
      .ok (reader.passing (.text .opened) frames) := rfl
  rw [run_cons_of_step hopen]
  refine run_scan (fun scan => reader.passing (.text scan) frames)
    (fun _ => .ok (reader.passed frames)) ?_ hscan
  intro scan c
  simp only [passing, step, stepSkip, Skip.step]
  cases scan.step .skipped c with
  | closed => cases frames <;> rfl
  | _ => rfl

theorem run_passing_key {units : List Nat} {text rest : List Char}
    (h : Text.Spelled units text rest) :
    (reader.passing .key frames).run ('"' :: text) = (reader.passing .colon frames).run rest := by
  rcases h.exists_run?_skipped [] with ⟨content, hscan⟩
  have hopen : (reader.passing .key frames).step '"' =
      .ok (reader.passing (.keyText .opened) frames) := rfl
  rw [run_cons_of_step hopen]
  refine run_scan (fun scan => reader.passing (.keyText scan) frames)
    (fun _ => .ok (reader.passing .colon frames)) ?_ hscan
  intro scan c
  simp only [passing, step, stepSkip, Skip.step]
  cases scan.step .skipped c <;> rfl

theorem run_passing_spots {spot last : Text.NumeralSpot} {cs : List Char}
    (h : spot.run? cs = some last) (rest : List Char) :
    (reader.passing (.numeral spot) frames).run (cs ++ rest) =
      (reader.passing (.numeral last) frames).run rest := by
  induction cs generalizing spot with
  | nil =>
      cases h
      rfl
  | cons c cs ih =>
      rw [Text.NumeralSpot.run?] at h
      cases hnext : spot.step c with
      | more next =>
          rw [hnext] at h
          have hstep : (reader.passing (.numeral spot) frames).step c =
              .ok (reader.passing (.numeral next) frames) := by
            simp [passing, step, stepSkip, Skip.step, hnext, Skip.move, move]
          rw [List.cons_append, run_cons_of_step hstep]
          exact ih h
      | _ =>
          rw [hnext] at h
          cases h

theorem run_passing_numeral {numeral : List Char} (h : Json.Numeral numeral) {c : Char}
    (hc : c ∈ Json.blanks ++ Json.enders) (rest : List Char) :
    (reader.passing .value frames).run (numeral ++ c :: rest) =
      (reader.passed frames).run (c :: rest) := by
  rcases Text.NumeralSpot.exists_run?_numeral h with
    ⟨first, digits, spot, last, rfl, hfirst, hrun, hlast⟩
  have hopen : (reader.passing .value frames).step first =
      .ok (reader.passing (.numeral spot) frames) := by
    rcases h.head with ⟨_, _, heq, hhead⟩
    cases heq
    rcases hhead with rfl | hdigit
    · cases hfirst
      rfl
    · have hne := fun d => Text.NumeralSpot.ne_of_isDigit hdigit (d := d)
      simp [passing, step, stepSkip, Skip.step, Skip.stepValue, isJsonBlank, hne ' ' rfl,
        hne '\t' rfl, hne '\n' rfl, hne '\r' rfl, hne '"' rfl, hne '[' rfl, hne '{' rfl,
        literalRest?_of_isDigit hdigit, hfirst, Skip.move, move]
  have hended : (reader.passing (.numeral last) frames).step c =
      (reader.passed frames).step c := by
    have hlastStep := Text.NumeralSpot.step_of_isComplete hlast hc
    cases frames <;> simp [passing, passed, step, stepSkip, Skip.step, hlastStep, move]
  rw [List.cons_append, run_cons_of_step hopen, run_passing_spots reader frames hrun, run_cons,
    run_cons, hended]

/-!
# Lists and objects
-/

theorem run_opening_list (text : List Char) :
    (reader.passing .value frames).run ('[' :: text) =
      (reader.passing .opened (.list :: frames)).run text :=
  run_cons_of_step rfl text

theorem run_opening_object (text : List Char) :
    (reader.passing .value frames).run ('{' :: text) =
      (reader.passing .opened (.object :: frames)).run text :=
  run_cons_of_step rfl text

theorem run_opened_list {text rest : List Char} {c : Char} (h : Json.Blanks text (c :: rest))
    (hc : c ∉ Json.blanks ++ Json.enders) :
    (reader.passing .opened (.list :: frames)).run text =
      (reader.passing .value (.list :: frames)).run text := by
  rw [List.mem_append, not_or] at hc
  have hblank := not_isJsonBlank_of_not_mem hc.1
  have hcloses : c ≠ Frame.list.closing := fun heq => hc.2 (heq ▸ by decide)
  have hstep : (reader.passing .opened (.list :: frames)).step c =
      (reader.passing .value (.list :: frames)).step c := by
    simp [passing, step, stepSkip, Skip.step, Skip.stepOpened, Skip.stepValue, hblank, hcloses,
      Skip.move, move]
  rw [run_blanks rfl h, run_blanks rfl h, run_cons, run_cons, hstep]

theorem run_opened_object {text rest : List Char} (h : Json.Blanks text ('"' :: rest)) :
    (reader.passing .opened (.object :: frames)).run text =
      (reader.passing .key (.object :: frames)).run text := by
  have hstep : (reader.passing .opened (.object :: frames)).step '"' =
      (reader.passing .key (.object :: frames)).step '"' := rfl
  rw [run_blanks rfl h, run_blanks rfl h, run_cons, run_cons, hstep]

theorem step_closing (frame : Frame) :
    (reader.passing .opened (frame :: frames)).step frame.closing = .ok (reader.passed frames) ∧
      (reader.passed (frame :: frames)).step frame.closing = .ok (reader.passed frames) := by
  cases frame <;> cases frames <;> exact ⟨rfl, rfl⟩

end Reader

def Starts (allowed text : List Char) : Prop :=
  exists c rest, text = c :: rest ∧ c ∈ allowed

theorem Starts.of_blanks {text rest : List Char} (h : Json.Blanks text rest)
    (hrest : Starts Json.enders rest) : Starts (Json.blanks ++ Json.enders) text := by
  cases h with
  | none =>
      rcases hrest with ⟨c, rest, rfl, hc⟩
      exact ⟨c, rest, rfl, List.mem_append_right _ hc⟩
  | more hblank => exact ⟨_, _, rfl, List.mem_append_left _ hblank⟩

theorem Starts.mono {allowed others text : List Char} (h : Starts allowed text)
    (hsubset : allowed ⊆ others) : Starts others text := by
  rcases h with ⟨c, rest, rfl, hc⟩
  exact ⟨c, rest, rfl, hsubset hc⟩

/--
Whether a phrase is passed over: what follows it is read as after any value, or
after the key and the value of a member.
-/
def PassedOver (text rest : List Char) : Json.Phrase -> Prop
  | .value _ => Starts (Json.blanks ++ Json.enders) rest ->
      forall reader frames,
        (Reader.passing reader .value frames).run text = (reader.passed frames).run rest
  | .padded _ => Starts Json.enders rest ->
      forall reader frames,
        (Reader.passing reader .value frames).run text = (reader.passed frames).run rest
  | .items _ => Starts [']'] rest ->
      forall reader frames,
        (Reader.passing reader .value (.list :: frames)).run text =
          (reader.passed (.list :: frames)).run rest
  | .member _ _ => Starts Json.enders rest ->
      forall reader frames,
        (Reader.passing reader .key (.object :: frames)).run text =
          (reader.passed (.object :: frames)).run rest
  | .members _ => Starts ['}'] rest ->
      forall reader frames,
        (Reader.passing reader .key (.object :: frames)).run text =
          (reader.passed (.object :: frames)).run rest

theorem passedOver {phrase : Json.Phrase} {text rest : List Char}
    (h : Json.Reads phrase text rest) : PassedOver text rest phrase := by
  -- The frames that are open around the phrase are for each phrase to choose.
  induction h with
  | null => exact fun _ reader frames => reader.run_passing_null frames _
  | true => exact fun _ reader frames => reader.run_passing_true frames _
  | false => exact fun _ reader frames => reader.run_passing_false frames _
  | number h =>
      rintro ⟨c, rest, rfl, hc⟩ reader frames
      exact reader.run_passing_numeral frames h hc rest
  | text h => exact fun _ reader frames => reader.run_passing_text frames h
  | noItems h =>
      intro _ reader frames
      rw [reader.run_opening_list, Reader.run_blanks rfl h]
      exact Reader.run_cons_of_step (reader.step_closing frames .list).1 _
  | list h ih =>
      intro _ reader frames
      rcases h.items_front with ⟨c, cs, hfront, hc⟩
      rw [reader.run_opening_list, reader.run_opened_list frames hfront hc,
        ih ⟨_, _, rfl, by decide⟩]
      exact Reader.run_cons_of_step (reader.step_closing frames .list).2 _
  | noMembers h =>
      intro _ reader frames
      rw [reader.run_opening_object, Reader.run_blanks rfl h]
      exact Reader.run_cons_of_step (reader.step_closing frames .object).1 _
  | object h ih =>
      intro _ reader frames
      rcases h.members_front with ⟨name, hfront⟩
      rw [reader.run_opening_object, reader.run_opened_object frames hfront,
        ih ⟨_, _, rfl, by decide⟩]
      exact Reader.run_cons_of_step (reader.step_closing frames .object).2 _
  | padded hbefore _ hafter ih =>
      intro hrest reader frames
      rw [Reader.run_blanks rfl hbefore, ih (.of_blanks hafter hrest),
        Reader.run_blanks (reader.awaitsToken_passed frames) hafter]
  | lastItem _ ih => exact fun hrest reader frames => ih (hrest.mono Json.brackets_subset) reader _
  | item _ _ ih ihLater =>
      intro hrest reader frames
      have hcomma : (reader.passed (.list :: frames)).step ',' =
          .ok (reader.passing .value (.list :: frames)) := rfl
      rw [ih ⟨_, _, rfl, by decide⟩, Reader.run_cons_of_step hcomma, ihLater hrest]
  | member hbefore hkey hafter _ ih =>
      intro hrest reader frames
      have hcolon : (reader.passing .colon (.object :: frames)).step ':' =
          .ok (reader.passing .value (.object :: frames)) := rfl
      rw [Reader.run_blanks rfl hbefore, reader.run_passing_key _ hkey,
        Reader.run_blanks rfl hafter, Reader.run_cons_of_step hcolon, ih hrest]
  | lastMember _ ih => exact fun hrest => ih (hrest.mono Json.braces_subset)
  | moreMembers _ _ ih ihLater =>
      intro hrest reader frames
      have hcomma : (reader.passed (.object :: frames)).step ',' =
          .ok (reader.passing .key (.object :: frames)) := rfl
      rw [ih ⟨_, _, rfl, by decide⟩, Reader.run_cons_of_step hcomma, ihLater hrest]

end Settings

end BrokerProbe
