import CodeMap.Journal.Tree
import Mathlib.Data.List.Basic

/-! # Which loggers are below the package logger

Where a logger has its place depends on the loggers that were used before it. For the package logger
this makes a difference only to names with two dots right behind the package's name
(`Ambiguous`). Of every other name `Tree.Linked.isBelow_use` says that its logger is below the
package logger just if the name says so (`Within`), whatever loggers there are. -/

namespace CodeMap.Journal

/-- The name is the package's or begins with it and a dot. -/
def Within (name : String) : Prop := name = package ∨ package.toList ++ ['.'] <+: name.toList

/-- The name begins with the package's and two dots. -/
def Ambiguous (name : String) : Prop := package.toList ++ ['.', '.'] <+: name.toList

instance : DecidablePred Within := fun _ => inferInstanceAs (Decidable (_ ∨ _))

instance : DecidablePred Ambiguous := fun _ => inferInstanceAs (Decidable (_ <+: _))

/-! ### The names above a name -/

theorem cuts_cons_of_ne {c : Char} (h : c ≠ '.') (cs : List Char) : cuts (c :: cs) = cuts cs := by
  rw [cuts]
  · rintro rfl
    exact absurd rfl h
  · rintro d ds rfl
    exact absurd rfl h

/-- Every cut takes off a dot and what is before it. -/
theorem suffix_of_mem_cuts {cs c : List Char} (h : c ∈ cuts cs) : '.' :: c <:+ cs := by
  fun_induction cuts cs with
  | case1 => cases h
  | case2 => cases h
  | case3 c' rest ih =>
    rcases List.mem_cons.1 h with rfl | h
    · exact List.suffix_refl _
    · exact (ih h).trans ((List.suffix_cons c' rest).trans (List.suffix_cons _ _))
  | case4 x rest _ _ ih => exact (ih h).trans (List.suffix_cons x rest)

/-- A dot is not passed over if no other dot is right before it. -/
theorem mem_cuts_append {top : List Char} (htop : top ≠ []) :
    ∀ pre : List Char, pre.getLast? ≠ some '.' → top ∈ cuts (pre ++ '.' :: top)
  | [], _ => by
    obtain ⟨c, rest, rfl⟩ := List.exists_cons_of_ne_nil htop
    exact List.mem_cons_self
  | [x], h => by
    have hx : x ≠ '.' := by simpa using h
    rw [List.cons_append, cuts_cons_of_ne hx]
    exact mem_cuts_append htop [] nofun
  | x :: y :: pre, h => by
    rw [List.getLast?_cons_cons] at h
    by_cases hx : x = '.'
    · -- a cut at this dot passes over the next character
      subst hx
      have hpre : pre.getLast? ≠ some '.' := by
        cases pre with
        | nil => exact nofun
        | cons z pre => rwa [List.getLast?_cons_cons] at h
      exact List.mem_cons_of_mem _ (mem_cuts_append htop pre hpre)
    · rw [List.cons_append, cuts_cons_of_ne hx]
      exact mem_cuts_append htop (y :: pre) h

section
variable {m name : String}

theorem prefix_of_mem_namesAbove (h : m ∈ namesAbove name) : m.toList ++ ['.'] <+: name.toList := by
  obtain ⟨c, hc, rfl⟩ := List.mem_map.1 h
  have hsuffix := suffix_of_mem_cuts hc
  rw [String.toList_ofList, ← List.reverse_cons]
  exact List.reverse_suffix.1 (by rwa [List.reverse_reverse])

theorem length_lt_of_mem_namesAbove (h : m ∈ namesAbove name) :
    m.toList.length < name.toList.length := by
  have := (prefix_of_mem_namesAbove h).length_le
  rw [List.length_append, List.length_singleton] at this
  omega

theorem package_mem_namesAbove (h : package.toList ++ ['.'] <+: name.toList)
    (hname : ¬ Ambiguous name) : package ∈ namesAbove name := by
  obtain ⟨rest, hrest⟩ := h
  have hlast : rest.reverse.getLast? ≠ some '.' := by
    intro hdot
    rw [List.getLast?_reverse] at hdot
    obtain ⟨tail, rfl⟩ := List.head?_eq_some_iff.1 hdot
    exact hname ⟨tail, by rw [← hrest]; simp⟩
  have hreverse : name.toList.reverse = rest.reverse ++ '.' :: package.toList.reverse := by
    rw [← hrest]
    simp
  refine List.mem_map.2 ⟨package.toList.reverse, ?_, ?_⟩
  · rw [hreverse]
    exact mem_cuts_append (by decide) _ hlast
  · rw [List.reverse_reverse, String.ofList_toList]

/-- The names above one of the package are of the package too, and not ambiguous if it is not. -/
theorem within_of_mem_namesAbove (hm : m ∈ namesAbove name) (hname : ¬ Ambiguous name)
    (h : package.toList ++ ['.'] <+: name.toList) : Within m ∧ ¬ Ambiguous m := by
  have hprefix := prefix_of_mem_namesAbove hm
  refine ⟨?_, fun hambiguous => hname (hambiguous.trans ((List.prefix_append _ _).trans hprefix))⟩
  have hdot : ∀ cs : List Char, cs ++ ['.'] <+: package.toList → False := by
    intro cs hcs
    have hmem : '.' ∈ package.toList := hcs.subset (List.mem_append_right cs List.mem_cons_self)
    exact absurd hmem (by decide)
  rcases List.prefix_or_prefix_of_prefix hprefix h with hle | hle
  · -- a cut inside the package's name would need a dot there
    rcases List.prefix_concat_iff.1 hle with heq | hinside
    · exact .inl (String.toList_inj.1 (List.append_cancel_right heq))
    · exact (hdot _ hinside).elim
  · rcases List.prefix_concat_iff.1 hle with heq | hbelow
    · exact .inl (String.toList_inj.1 (List.append_cancel_right heq).symm)
    · exact .inr hbelow

/-- A name that is not the package's has no name of the package above it. -/
theorem not_within_of_mem_namesAbove (hm : m ∈ namesAbove name) (h : ¬ Within name) : ¬ Within m := by
  have hprefix := prefix_of_mem_namesAbove hm
  rintro (rfl | hbelow)
  · exact h (.inr hprefix)
  · exact h (.inr (hbelow.trans ((List.prefix_append _ _).trans hprefix)))

end

/-! ### The tree -/

namespace Tree

/-- The links of a tree go from a name to names above it, and end at the package logger where they
must. -/
structure Linked (t : Tree) : Prop where
  top : t.has package
  parent : ∀ l ∈ t, ∀ p, l.parent = some p → p ∈ namesAbove l.name ∧ t.has p
  sought : ∀ l ∈ t, ∀ n ∈ l.sought, n ∈ namesAbove l.name
  child : ∀ l ∈ t, package.toList ++ ['.'] <+: l.name.toList → ¬ Ambiguous l.name → l.parent ≠ none

section
variable {t : Tree} {n name : String}

theorem has_iff : t.has name ↔ ∃ l ∈ t, l.name = name := by
  simp [has]

@[simp] theorem adopt_name (name : String) (l : Logger) : (adopt name l).name = l.name := by
  unfold adopt
  split <;> rfl

theorem adopt_cases (name : String) (l : Logger) :
    adopt name l = l ∨ name ∈ l.sought ∧ adopt name l = { l with parent := some name } := by
  unfold adopt
  split
  · rename_i h
    rw [Bool.and_eq_true, List.contains_iff_mem] at h
    exact .inr ⟨h.1, rfl⟩
  · exact .inl rfl

theorem use_eq_self (h : name = rootName ∨ t.has name) : t.use name = t := if_pos h

theorem use_eq_append (h : ¬ (name = rootName ∨ t.has name)) : t.use name = t.map (adopt name) ++
    [{ name := name, parent := (namesAbove name).find? t.has,
       sought := (namesAbove name).takeWhile fun n => !t.has n }] :=
  if_neg h

theorem has_use_of_has (h : t.has n) (name : String) : (t.use name).has n := by
  by_cases hname : name = rootName ∨ t.has name
  · rwa [use_eq_self hname]
  · obtain ⟨l, hl, hn⟩ := has_iff.1 h
    rw [use_eq_append hname, has_iff]
    exact ⟨adopt name l, List.mem_append_left _ (List.mem_map_of_mem hl), by rw [adopt_name, hn]⟩

theorem has_use (h : name ≠ rootName) : (t.use name).has name := by
  by_cases hname : t.has name
  · exact has_use_of_has hname name
  · rw [use_eq_append (not_or.2 ⟨h, hname⟩), has_iff]
    exact ⟨_, List.mem_append_right _ List.mem_cons_self, rfl⟩

/-- Using a logger keeps the links, wherever it comes in between. -/
theorem Linked.use (h : t.Linked) (name : String) : (t.use name).Linked := by
  by_cases hname : name = rootName ∨ t.has name
  · rwa [use_eq_self hname]
  have hroot : name ≠ rootName := fun heq => hname (.inl heq)
  have hold : ∀ n, t.has n → (t.use name).has n := fun n hn => has_use_of_has hn name
  have hself : (t.use name).has name := has_use hroot
  refine ⟨hold _ h.top, ?_, ?_, ?_⟩ <;> intro l hl <;>
    rw [use_eq_append hname, List.mem_append, List.mem_map, List.mem_singleton] at hl
  · intro p hp
    rcases hl with ⟨l, hl, rfl⟩ | rfl
    · rw [adopt_name]
      rcases adopt_cases name l with heq | ⟨hsought, heq⟩
      · rw [heq] at hp
        exact ⟨(h.parent l hl p hp).1, hold p (h.parent l hl p hp).2⟩
      · rw [heq] at hp
        obtain rfl : name = p := Option.some.inj hp
        exact ⟨h.sought l hl name hsought, hself⟩
    · exact ⟨List.mem_of_find?_eq_some hp, hold p (List.find?_some hp)⟩
  · intro n hn
    rcases hl with ⟨l, hl, rfl⟩ | rfl
    · rw [adopt_name]
      rcases adopt_cases name l with heq | ⟨-, heq⟩ <;> rw [heq] at hn <;> exact h.sought l hl n hn
    · exact (List.takeWhile_sublist _).subset hn
  · intro hbelow hclear
    rcases hl with ⟨l, hl, rfl⟩ | rfl
    · rw [adopt_name] at hbelow hclear
      rcases adopt_cases name l with heq | ⟨-, heq⟩ <;> rw [heq]
      · exact h.child l hl hbelow hclear
      · exact Option.some_ne_none name
    · intro hnone
      exact List.find?_eq_none.1 hnone _ (package_mem_namesAbove hbelow hclear) h.top

theorem Linked.foldl_use (h : t.Linked) (names : List String) : (names.foldl Tree.use t).Linked := by
  induction names generalizing t with
  | nil => exact h
  | cons name names ih => exact ih (h.use name)

theorem linked_initial : Tree.initial.Linked := by
  have hpackage : Linked (Tree.use [] Journal.package) := by
    refine ⟨by decide, ?_, ?_, ?_⟩ <;> intro l hl <;>
      obtain rfl : l = ⟨Journal.package, none, []⟩ := List.mem_singleton.1 hl
    · exact nofun
    · exact nofun
    · intro hbelow
      exact absurd hbelow (by decide)
  have hloggers : packageLoggers = Journal.package :: packageLoggers.tail := rfl
  rw [Tree.initial, hloggers, List.foldl_cons]
  exact hpackage.foldl_use _

/-! ### The way up -/

theorem find?_of_has (h : t.has name) :
    ∃ l ∈ t, t.find? (fun l => l.name = name) = some l ∧ l.name = name := by
  obtain ⟨l, hl, hname⟩ := has_iff.1 h
  cases hfind : t.find? fun l => l.name = name with
  | none => exact absurd hname (by simpa using List.find?_eq_none.1 hfind l hl)
  | some l' => exact ⟨l', List.mem_of_find?_eq_some hfind, rfl, by simpa using List.find?_some hfind⟩

/-- The number of loggers with names shorter than a given one, which bounds the way up from it. -/
def shorter (t : Tree) (name : String) : Nat :=
  t.countP fun l => l.name.toList.length < name.toList.length

theorem shorter_lt (hn : t.has n) (h : n.toList.length < name.toList.length) :
    t.shorter n < t.shorter name := by
  obtain ⟨l, hl, rfl⟩ := has_iff.1 hn
  obtain ⟨front, back, rfl⟩ := List.append_of_mem hl
  have hmono : ∀ ls : List Logger,
      (ls.countP fun l' => l'.name.toList.length < l.name.toList.length) ≤
        ls.countP fun l' => l'.name.toList.length < name.toList.length := by
    intro ls
    refine List.countP_mono_left fun l' _ hl' => ?_
    rw [decide_eq_true_eq] at hl' ⊢
    omega
  have hfront := hmono front
  have hback := hmono back
  simp only [shorter, List.countP_append, List.countP_cons, decide_eq_true_eq, Nat.lt_irrefl, h,
    if_true, if_false]
  omega

theorem shorter_le (t : Tree) (name : String) : t.shorter name ≤ t.length := List.countP_le_length

theorem Linked.leadsTo (h : t.Linked) {steps : Nat} (hname : Within name) (hclear : ¬ Ambiguous name)
    (hhas : t.has name) (hsteps : t.shorter name ≤ steps) :
    t.leadsTo Journal.package steps name = true := by
  induction steps generalizing name with
  | zero =>
    rcases hname with rfl | hbelow
    · rfl
    · obtain ⟨l, hl, -, rfl⟩ := find?_of_has hhas
      obtain ⟨p, hp⟩ := Option.ne_none_iff_exists'.1 (h.child l hl hbelow hclear)
      obtain ⟨habove, hhasp⟩ := h.parent l hl p hp
      -- the parent has a shorter name, so there is a step left
      have := shorter_lt hhasp (length_lt_of_mem_namesAbove habove)
      omega
  | succ steps ih =>
    rcases hname with rfl | hbelow
    · simp [Tree.leadsTo]
    · obtain ⟨l, hl, hfind, rfl⟩ := find?_of_has hhas
      obtain ⟨p, hp⟩ := Option.ne_none_iff_exists'.1 (h.child l hl hbelow hclear)
      obtain ⟨habove, hhasp⟩ := h.parent l hl p hp
      obtain ⟨hwithin, hclear'⟩ := within_of_mem_namesAbove habove hclear hbelow
      have hless := shorter_lt hhasp (length_lt_of_mem_namesAbove habove)
      have hrest := ih hwithin hclear' hhasp (by omega)
      simp only [Tree.leadsTo, hfind, Option.bind_some, hp, hrest, Bool.or_true]

theorem Linked.not_leadsTo (h : t.Linked) (steps : Nat) (hname : ¬ Within name) :
    t.leadsTo Journal.package steps name = false := by
  have hne : name ≠ Journal.package := fun heq => hname (.inl heq)
  induction steps generalizing name with
  | zero => simpa [Tree.leadsTo] using hne
  | succ steps ih =>
    rw [Tree.leadsTo, decide_eq_false hne, Bool.false_or]
    cases hfind : t.find? fun l => l.name = name with
    | none => rfl
    | some l =>
      obtain rfl : l.name = name := by simpa using List.find?_some hfind
      cases hp : l.parent with
      | none => simp [hp]
      | some p =>
        have habove := (h.parent l (List.mem_of_find?_eq_some hfind) p hp).1
        have hp' := not_within_of_mem_namesAbove habove hname
        simpa [hp] using ih hp' fun heq => hp' (.inl heq)

/-- A logger that is used is below the package logger just if its name says so. -/
theorem Linked.isBelow_use (h : t.Linked) (hclear : ¬ Ambiguous name) :
    (t.use name).isBelow Journal.package name = decide (Within name) := by
  by_cases hname : Within name
  · have hroot : name ≠ rootName := by
      rintro rfl
      exact absurd hname (by decide)
    rw [decide_eq_true hname]
    exact (h.use name).leadsTo hname hclear (has_use hroot) (shorter_le _ _)
  · rw [decide_eq_false hname]
    exact (h.use name).not_leadsTo _ hname

end
end Tree
end CodeMap.Journal
