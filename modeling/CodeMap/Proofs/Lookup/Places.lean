import CodeMap.Chart
import Mathlib.Data.List.Basic

/-! # Places in a chart

A place is the number of a generated line with the number of a segment in it. `Chart.places` lists
those of a chart in document order (`pairwise_places`); for each of them, `Chart.segment?` is the
segment there and `Chart.earlier` the part of its line before it. -/

namespace CodeMap

/-- The numbers of a generated line and of a segment in it. -/
structure Place where
  line : Nat
  segment : Nat
  deriving DecidableEq, Repr

/-- Document order. -/
def Place.Before (p q : Place) : Prop :=
  p.line < q.line ∨ p.line = q.line ∧ p.segment < q.segment

instance (p q : Place) : Decidable (p.Before q) := inferInstanceAs (Decidable (_ ∨ _))

theorem Place.Before.not_before {p q : Place} (h : p.Before q) : ¬ q.Before p := by
  unfold Before at *
  omega

/-- The places of some lines, numbered from `n` on. -/
def placesFrom (n : Nat) (lines : List Line) : List Place :=
  (lines.zipIdx n).flatMap fun (segments, n) => (List.range segments.length).map (⟨n, ·⟩)

section
variable {n : Nat} {segments : Line} {lines : List Line} {p : Place}

theorem placesFrom_cons (n : Nat) (segments : Line) (lines : List Line) :
    placesFrom n (segments :: lines) =
      (List.range segments.length).map (⟨n, ·⟩) ++ placesFrom (n + 1) lines := rfl

theorem mem_placesFrom : p ∈ placesFrom n lines ↔
    ∃ segments, n ≤ p.line ∧ lines[p.line - n]? = some segments ∧ p.segment < segments.length := by
  constructor
  · intro h
    obtain ⟨⟨segments, m⟩, hm, hp⟩ := List.mem_flatMap.1 h
    obtain ⟨j, hj, rfl⟩ := List.mem_map.1 hp
    obtain ⟨hle, hget⟩ := List.mk_mem_zipIdx_iff_le_and_getElem?_sub.1 hm
    exact ⟨segments, hle, hget, List.mem_range.1 hj⟩
  · rintro ⟨segments, hle, hget, hlt⟩
    exact List.mem_flatMap.2 ⟨(segments, p.line),
      List.mk_mem_zipIdx_iff_le_and_getElem?_sub.2 ⟨hle, hget⟩,
      List.mem_map.2 ⟨p.segment, List.mem_range.2 hlt, rfl⟩⟩

theorem pairwise_placesFrom (n : Nat) (lines : List Line) :
    (placesFrom n lines).Pairwise Place.Before := by
  induction lines generalizing n with
  | nil => exact List.Pairwise.nil
  | cons segments lines ih =>
    rw [placesFrom_cons, List.pairwise_append]
    refine ⟨?_, ih (n + 1), ?_⟩
    · refine List.pairwise_map.2 (List.pairwise_lt_range.imp ?_)
      intro i j hij
      exact .inr ⟨rfl, hij⟩
    · intro p hp q hq
      obtain ⟨j, -, rfl⟩ := List.mem_map.1 hp
      obtain ⟨segments', hle, -⟩ := mem_placesFrom.1 hq
      exact .inl hle

end

namespace Chart

/-- Every place of a chart, in document order. -/
def places (c : Chart) : List Place := placesFrom 0 c.lines

def segment? (c : Chart) (p : Place) : Option Segment := c.lines[p.line]?.bind (·[p.segment]?)

/-- The segments before a place on its generated line. -/
def earlier (c : Chart) (p : Place) : Line := (c.lines.getD p.line []).take p.segment

variable {c : Chart}

theorem pairwise_places (c : Chart) : c.places.Pairwise Place.Before := pairwise_placesFrom 0 c.lines

theorem mem_places {p : Place} : p ∈ c.places ↔
    ∃ segments, c.lines[p.line]? = some segments ∧ p.segment < segments.length := by
  rw [places, mem_placesFrom]
  simp

/-! ### Around one place -/

section
variable {n : Nat} {front back : Line} {s : Segment}

theorem segment?_eq (hn : c.lines[n]? = some (front ++ s :: back)) :
    c.segment? ⟨n, front.length⟩ = some s := by
  simp [segment?, hn]

theorem earlier_eq (hn : c.lines[n]? = some (front ++ s :: back)) :
    c.earlier ⟨n, front.length⟩ = front := by
  simp [earlier, List.getD_eq_getElem?_getD, hn]

theorem mem_places_of_split (hn : c.lines[n]? = some (front ++ s :: back)) :
    ⟨n, front.length⟩ ∈ c.places :=
  mem_places.2 ⟨_, hn, by simp⟩

theorem length_earlier {p : Place} (h : c.segment? p = some s) : (c.earlier p).length = p.segment := by
  obtain ⟨segments, hn, hs⟩ := Option.bind_eq_some_iff.1 h
  obtain ⟨hlt, -⟩ := List.getElem?_eq_some_iff.1 hs
  rw [earlier, List.getD_eq_getElem?_getD, hn, Option.getD_some, List.length_take_of_le (Nat.le_of_lt hlt)]

/-- A place cuts its line at its segment. -/
theorem exists_split_of_segment? {p : Place} (h : c.segment? p = some s) :
    ∃ back, c.lines[p.line]? = some (c.earlier p ++ s :: back) := by
  obtain ⟨segments, hn, hs⟩ := Option.bind_eq_some_iff.1 h
  obtain ⟨hlt, rfl⟩ := List.getElem?_eq_some_iff.1 hs
  refine ⟨segments.drop (p.segment + 1), ?_⟩
  rw [earlier, List.getD_eq_getElem?_getD, hn, Option.getD_some, List.getElem_cons_drop,
    List.take_append_drop]

end

/-! ### Before one place -/

section
variable {front back : List Place} {p : Place}

/-- The places before one are those that the document lists in front of it. -/
theorem filter_before (h : c.places = front ++ p :: back) :
    c.places.filter (·.Before p) = front := by
  obtain ⟨-, hback, hfront⟩ := List.pairwise_append.1 (h ▸ c.pairwise_places)
  have hbefore : ∀ q ∈ front, decide (q.Before p) = true := by
    intro q hq
    exact decide_eq_true (hfront q hq p List.mem_cons_self)
  have hnot : ∀ q ∈ p :: back, ¬ decide (q.Before p) = true := by
    intro q hq hdec
    rcases List.mem_cons.1 hq with rfl | hq
    · exact (of_decide_eq_true hdec).not_before (of_decide_eq_true hdec)
    · exact (List.rel_of_pairwise_cons hback hq).not_before (of_decide_eq_true hdec)
  rw [h, List.filter_append, List.filter_eq_self.2 hbefore, List.filter_eq_nil_iff.2 hnot,
    List.append_nil]

theorem before_iff_mem (h : c.places = front ++ p :: back) {q : Place} (hq : q ∈ c.places) :
    q.Before p ↔ q ∈ front := by
  rw [← filter_before h, List.mem_filter]
  simp [hq]

end

end Chart

end CodeMap
