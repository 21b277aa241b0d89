import Mathlib.Data.List.Basic
/-!
# Taking items off a stream that arrives in pieces

A `Reader` looks at the symbols that have arrived and are not taken yet: it waits for more, fails,
or takes an item off the front. It is steady where more symbols at the end change neither a
failure nor an item. `drain` takes items until the reader waits or fails, and `feed` drains after
each piece of a stream. For a steady reader it does not matter how the stream is cut: what is
taken in total, and whether it fails, is what draining the whole stream gives.
-/

namespace DdingGameServer

universe u v

/-- What a reader makes of the symbols that have arrived. -/
inductive Verdict (α : Type u) (β : Type v)
  | wait
  | fail
  | item (b : β) (rest : List α)

/-- The verdict with more symbols behind. -/
def Verdict.append {α : Type u} {β : Type v} (more : List α) : Verdict α β → Verdict α β
  | .wait => .wait
  | .fail => .fail
  | .item b rest => .item b (rest ++ more)

/-- **A steady reader.** -/
structure Reader (α : Type u) (β : Type v) where
  read : List α → Verdict α β
  read_nil : read [] = .wait
  /-- An item takes at least one symbol. -/
  shrinks {l rest : List α} {b : β} : read l = .item b rest → rest.length < l.length
  steady {l : List α} (more : List α) : read l ≠ .wait → read (l ++ more) = (read l).append more

namespace Reader

variable {α : Type u} {β : Type v} (R : Reader α β)

/-- What was taken, what is left, and whether the reader failed. -/
structure Drained (α : Type u) (β : Type v) where
  items : List β
  rest : List α
  failed : Bool

/-- Take up to `fuel` items. -/
def drainUpTo : ℕ → List α → Drained α β
  | 0, l => ⟨[], l, false⟩
  | fuel + 1, l =>
    match R.read l with
    | .wait => ⟨[], l, false⟩
    | .fail => ⟨[], l, true⟩
    | .item b rest =>
      let r := drainUpTo fuel rest
      ⟨b :: r.items, r.rest, r.failed⟩

/-- Take items until the reader waits or fails. -/
def drain (l : List α) : Drained α β := R.drainUpTo l.length l

/-- Drain after each piece, up to the first failure: what was taken, and whether it failed. -/
def feed (l : List α) : List (List α) → List β × Bool
  | [] => ([], false)
  | piece :: pieces =>
    let r := R.drain (l ++ piece)
    if r.failed then (r.items, true)
    else
      let (items, failed) := feed r.rest pieces
      (r.items ++ items, failed)

/-- **The items of a whole stream**, and whether it fails, as a derivation. -/
inductive Parses : List α → List β → Bool → Prop
  | wait {l : List α} : R.read l = .wait → Parses l [] false
  | fail {l : List α} : R.read l = .fail → Parses l [] true
  | item {l rest : List α} {b : β} {items : List β} {failed : Bool} : R.read l = .item b rest →
      Parses rest items failed → Parses l (b :: items) failed

variable {R} {l rest more : List α} {b : β} {items items' : List β} {failed failed' : Bool}
  {fuel fuel' : ℕ} {pieces pieces' : List (List α)}

/-- A stream parses in one way. -/
theorem Parses.unique (h : R.Parses l items failed) (h' : R.Parses l items' failed') :
    items = items' ∧ failed = failed' := by
  induction h generalizing items' failed' with
  | wait hread =>
    cases h' with
    | wait _ => exact ⟨rfl, rfl⟩
    | fail hread' => exact nomatch hread.symm.trans hread'
    | item hread' _ => exact nomatch hread.symm.trans hread'
  | fail hread =>
    cases h' with
    | wait hread' => exact nomatch hread.symm.trans hread'
    | fail _ => exact ⟨rfl, rfl⟩
    | item hread' _ => exact nomatch hread.symm.trans hread'
  | item hread _ ih =>
    cases h' with
    | wait hread' => exact nomatch hread.symm.trans hread'
    | fail hread' => exact nomatch hread.symm.trans hread'
    | item hread' hrest =>
      obtain ⟨rfl, rfl⟩ := Verdict.item.inj (hread.symm.trans hread')
      obtain ⟨rfl, rfl⟩ := ih hrest
      exact ⟨rfl, rfl⟩

theorem item_append (more : List α) (h : R.read l = .item b rest) :
    R.read (l ++ more) = .item b (rest ++ more) := by
  rw [R.steady more (by rw [h]; exact nofun), h]
  rfl

theorem fail_append (more : List α) (h : R.read l = .fail) : R.read (l ++ more) = .fail := by
  rw [R.steady more (by rw [h]; exact nofun), h]
  rfl

/-! ## Draining -/

/-- As many turns as there are symbols are enough. -/
theorem drainUpTo_eq_drainUpTo (h : l.length ≤ fuel) (h' : l.length ≤ fuel') :
    R.drainUpTo fuel l = R.drainUpTo fuel' l := by
  induction fuel generalizing fuel' l with
  | zero =>
    obtain rfl := List.eq_nil_of_length_eq_zero (Nat.le_zero.mp h)
    cases fuel' with
    | zero => rfl
    | succ fuel' => simp only [drainUpTo, R.read_nil]
  | succ fuel ih =>
    cases fuel' with
    | zero =>
      obtain rfl := List.eq_nil_of_length_eq_zero (Nat.le_zero.mp h')
      simp only [drainUpTo, R.read_nil]
    | succ fuel' =>
      simp only [drainUpTo]
      cases hread : R.read l with
      | wait => rfl
      | fail => rfl
      | item b rest =>
        have hlt := R.shrinks hread
        have hrest : R.drainUpTo fuel rest = R.drainUpTo fuel' rest := ih (by omega) (by omega)
        dsimp only
        rw [hrest]

/-- A reader that waits has drained. -/
theorem drain_of_wait (h : R.read l = .wait) : R.drain l = ⟨[], l, false⟩ := by
  cases l with
  | nil => rfl
  | cons a l => simp only [drain, List.length_cons, drainUpTo, h]

theorem drain_of_fail (h : R.read l = .fail) : R.drain l = ⟨[], l, true⟩ := by
  cases l with
  | nil => exact nomatch R.read_nil.symm.trans h
  | cons a l => simp only [drain, List.length_cons, drainUpTo, h]

/-- An item, and then the items of the rest. -/
theorem drain_of_item (h : R.read l = .item b rest) :
    R.drain l = ⟨b :: (R.drain rest).items, (R.drain rest).rest, (R.drain rest).failed⟩ := by
  cases l with
  | nil => exact nomatch R.read_nil.symm.trans h
  | cons a l =>
    have hlt := R.shrinks h
    rw [List.length_cons] at hlt
    have hrest : R.drainUpTo l.length rest = R.drainUpTo rest.length rest :=
      drainUpTo_eq_drainUpTo (by omega) (Nat.le_refl _)
    simp only [drain, List.length_cons, drainUpTo, h, hrest]

/-- **Induction along a drain**: over the items the reader takes. -/
theorem drain_induction {P : List α → Prop} (wait : ∀ l, R.read l = .wait → P l)
    (fail : ∀ l, R.read l = .fail → P l)
    (item : ∀ l b rest, R.read l = .item b rest → P rest → P l) (l : List α) : P l := by
  induction hn : l.length using Nat.strongRecOn generalizing l with
  | _ n ih =>
    cases hread : R.read l with
    | wait => exact wait l hread
    | fail => exact fail l hread
    | item b rest => exact item l b rest hread (ih _ (hn ▸ R.shrinks hread) rest rfl)

/-- Draining parses. -/
theorem parses_drain (l : List α) : R.Parses l (R.drain l).items (R.drain l).failed := by
  induction l using drain_induction (R := R) with
  | wait l h =>
    rw [drain_of_wait h]
    exact .wait h
  | fail l h =>
    rw [drain_of_fail h]
    exact .fail h
  | item l b rest h ih =>
    rw [drain_of_item h]
    exact .item h ih

/-- What is left of a drain that did not fail makes the reader wait. -/
theorem read_rest_drain (h : (R.drain l).failed = false) :
    R.read (R.drain l).rest = .wait := by
  induction l using drain_induction (R := R) with
  | wait l hread =>
    rw [drain_of_wait hread]
    exact hread
  | fail l hread =>
    rw [drain_of_fail hread] at h
    exact nomatch h
  | item l b rest hread ih =>
    rw [drain_of_item hread] at h ⊢
    exact ih h

/-- **More symbols after a drain that failed change nothing that was taken.** -/
theorem drain_append_of_failed (more : List α) (h : (R.drain l).failed = true) :
    (R.drain (l ++ more)).items = (R.drain l).items ∧ (R.drain (l ++ more)).failed = true := by
  induction l using drain_induction (R := R) with
  | wait l hread =>
    rw [drain_of_wait hread] at h
    exact nomatch h
  | fail l hread =>
    rw [drain_of_fail (fail_append more hread), drain_of_fail hread]
    exact ⟨rfl, rfl⟩
  | item l b rest hread ih =>
    rw [drain_of_item hread] at h
    obtain ⟨hitems, hfailed⟩ := ih h
    rw [drain_of_item (item_append more hread), drain_of_item hread]
    exact ⟨congrArg (b :: ·) hitems, hfailed⟩

/-- **More symbols after a drain that did not fail** are drained behind what it left. -/
theorem drain_append (h : (R.drain l).failed = false) :
    R.drain (l ++ more) =
      ⟨(R.drain l).items ++ (R.drain ((R.drain l).rest ++ more)).items,
        (R.drain ((R.drain l).rest ++ more)).rest,
        (R.drain ((R.drain l).rest ++ more)).failed⟩ := by
  induction l using drain_induction (R := R) with
  | wait l hread =>
    rw [drain_of_wait hread]
    rfl
  | fail l hread =>
    rw [drain_of_fail hread] at h
    exact nomatch h
  | item l b rest hread ih =>
    rw [drain_of_item hread] at h ⊢
    rw [drain_of_item (item_append more hread), ih h]
    rfl

/-! ## Feeding -/

/-- A stream fed in pieces behind what a drain left is the stream drained at once. -/
theorem feed_eq_drain (h : R.read l = .wait) :
    R.feed l pieces = ((R.drain (l ++ pieces.flatten)).items,
      (R.drain (l ++ pieces.flatten)).failed) := by
  induction pieces generalizing l with
  | nil => simp [feed, drain_of_wait h]
  | cons piece pieces ih =>
    rw [List.flatten_cons, ← List.append_assoc]
    cases hfailed : (R.drain (l ++ piece)).failed with
    | true =>
      obtain ⟨hitems, hfail⟩ := drain_append_of_failed pieces.flatten hfailed
      simp only [feed, hfailed, if_true, hitems, hfail]
    | false =>
      rw [drain_append hfailed]
      simp only [feed, hfailed, Bool.false_eq_true, if_false, ih (read_rest_drain hfailed)]

/-- **It does not matter how a stream is cut.** -/
theorem feed_eq_feed (h : pieces.flatten = pieces'.flatten) :
    R.feed [] pieces = R.feed [] pieces' := by
  rw [feed_eq_drain R.read_nil, feed_eq_drain R.read_nil, h]

/-- What is taken from the pieces is what the whole stream parses to. -/
theorem parses_feed (pieces : List (List α)) :
    R.Parses pieces.flatten (R.feed [] pieces).1 (R.feed [] pieces).2 := by
  rw [feed_eq_drain R.read_nil]
  exact parses_drain pieces.flatten

/-! ## Streams of frames -/

variable {frame : β → List α} {bs : List β}

/-- What stands behind the frames that are complete: nothing where no frame follows, otherwise a
proper prefix of the next one. -/
def IsRest (frame : β → List α) (rest : List α) : List β → Prop
  | [] => rest = []
  | b :: _ => rest <+: frame b ∧ rest ≠ frame b

/-- A reader that takes a frame when it is there waits on a part of it. -/
theorem read_of_prefix_frame (hitem : ∀ rest, R.read (frame b ++ rest) = .item b rest)
    (hpre : l <+: frame b) (hne : l ≠ frame b) : R.read l = .wait := by
  obtain ⟨more, hmore⟩ := hpre
  by_contra hread
  have hall := R.steady more hread
  have hframe := hitem []
  rw [List.append_nil] at hframe
  rw [hmore, hframe] at hall
  cases hl : R.read l with
  | wait => exact hread hl
  | fail =>
    rw [hl] at hall
    exact nomatch hall
  | item b' rest =>
    rw [hl] at hall
    obtain ⟨-, hnil⟩ := Verdict.item.inj hall
    obtain ⟨-, rfl⟩ := List.append_eq_nil_iff.mp hnil.symm
    exact hne (by rw [← hmore, List.append_nil])

/-- **Draining a part of a stream of frames** takes the frames that are complete and leaves a proper
prefix of the next one. -/
theorem drain_of_prefix_frames (hitem : ∀ b ∈ bs, ∀ rest, R.read (frame b ++ rest) = .item b rest)
    (hpre : l <+: bs.flatMap frame) :
    ∃ taken waiting, bs = taken ++ waiting ∧ (R.drain l).items = taken ∧
      (R.drain l).failed = false ∧ IsRest frame (R.drain l).rest waiting := by
  induction bs generalizing l with
  | nil =>
    obtain rfl := List.prefix_nil.mp hpre
    rw [drain_of_wait R.read_nil]
    exact ⟨[], [], rfl, rfl, rfl, rfl⟩
  | cons b bs ih =>
    have hb := hitem b List.mem_cons_self
    rw [List.flatMap_cons] at hpre
    rcases List.prefix_or_prefix_of_prefix hpre (List.prefix_append _ _) with hshort | ⟨rest, rfl⟩
    · by_cases hne : l = frame b
      · subst hne
        have hread := hb []
        rw [List.append_nil] at hread
        obtain ⟨taken, waiting, hbs, hitems, hfailed, hrest⟩ :=
          ih (fun b' hb' => hitem b' (List.mem_cons_of_mem _ hb')) List.nil_prefix
        rw [drain_of_item hread]
        exact ⟨b :: taken, waiting, by rw [hbs, List.cons_append], by rw [hitems], hfailed, hrest⟩
      · rw [drain_of_wait (read_of_prefix_frame hb hshort hne)]
        exact ⟨[], b :: bs, rfl, rfl, rfl, hshort, hne⟩
    · obtain ⟨taken, waiting, hbs, hitems, hfailed, hrest⟩ :=
        ih (fun b' hb' => hitem b' (List.mem_cons_of_mem _ hb'))
          ((List.prefix_append_right_inj _).mp hpre)
      rw [drain_of_item (hb rest)]
      exact ⟨b :: taken, waiting, by rw [hbs, List.cons_append], by rw [hitems], hfailed, hrest⟩

/-- The whole stream is taken. -/
theorem drain_frames (hitem : ∀ b ∈ bs, ∀ rest, R.read (frame b ++ rest) = .item b rest) :
    R.drain (bs.flatMap frame) = ⟨bs, [], false⟩ := by
  induction bs with
  | nil => exact drain_of_wait R.read_nil
  | cons b bs ih =>
    rw [List.flatMap_cons, drain_of_item (hitem b List.mem_cons_self _),
      ih fun b' hb' => hitem b' (List.mem_cons_of_mem _ hb')]

end Reader

end DdingGameServer
