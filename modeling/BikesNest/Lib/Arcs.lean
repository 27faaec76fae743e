import Mathlib.Order.CompletePartialOrder

/-!
# Arcs of a cycle

A linear order read as a cycle, such as the times of a day.  An arc runs from its
start up to its stop, which it does not contain; when the stop is not after the
start it runs on past the end of the order and begins again at the bottom.

* `Arc.meets_iff`: two arcs share a point when one of them starts in the other.
* `Arc.Shrinks f a`: a monotone map `f` to coarser points sends a proper arc to one
  that stops where it starts, and so to the whole cycle.
* `Arc.Meets.of_map` and `Arc.Meets.map_or`: what the images of two arcs under `f` say
  about the arcs.
-/

/-- A start and a stop. -/
structure Arc (α : Type*) where
  start : α
  stop : α

namespace Arc

variable {α β : Type*} [LinearOrder α] [LinearOrder β]

/-- The points from the start up to the stop, past the end of the order when the stop
is not after the start. -/
def Mem (a : Arc α) (t : α) : Prop :=
  if a.start < a.stop then a.start ≤ t ∧ t < a.stop else a.start ≤ t ∨ t < a.stop

instance (a : Arc α) (t : α) : Decidable (a.Mem t) :=
  inferInstanceAs (Decidable
    (if a.start < a.stop then a.start ≤ t ∧ t < a.stop else a.start ≤ t ∨ t < a.stop))

theorem mem_of_lt {a : Arc α} (h : a.start < a.stop) (t : α) :
    a.Mem t ↔ a.start ≤ t ∧ t < a.stop := by
  rw [Mem, if_pos h]

theorem mem_of_le {a : Arc α} (h : a.stop ≤ a.start) (t : α) :
    a.Mem t ↔ a.start ≤ t ∨ t < a.stop := by
  rw [Mem, if_neg (not_lt.mpr h)]

/-- No arc is empty. -/
theorem mem_start (a : Arc α) : a.Mem a.start := by
  rcases lt_or_ge a.start a.stop with h | h
  · exact (mem_of_lt h _).mpr ⟨le_refl _, h⟩
  · exact (mem_of_le h _).mpr (.inl (le_refl _))

/-- Two arcs share a point. -/
def Meets (a b : Arc α) : Prop := ∃ t, a.Mem t ∧ b.Mem t

theorem meets_comm {a b : Arc α} : a.Meets b ↔ b.Meets a :=
  exists_congr fun _ => and_comm

/-- The shared point that is reached first is the start of one of the arcs. -/
theorem meets_iff {a b : Arc α} : a.Meets b ↔ a.Mem b.start ∨ b.Mem a.start := by
  constructor
  · rintro ⟨t, hat, hbt⟩
    unfold Mem at *
    split_ifs at * <;> grind
  · rintro (h | h)
    · exact ⟨b.start, h, b.mem_start⟩
    · exact ⟨a.start, a.mem_start, h⟩

/-! ## Coarser points -/

/-- The arc between the images of the ends. -/
def map (f : α → β) (a : Arc α) : Arc β := ⟨f a.start, f a.stop⟩

/-- The stop comes after the start, and `f` does not tell them apart. -/
def Shrinks (f : α → β) (a : Arc α) : Prop := a.start < a.stop ∧ f a.stop ≤ f a.start

/-- `b` starts in the last of the coarser points of `a`, before `a` stops. -/
def StartsLast (f : α → β) (a b : Arc α) : Prop := f b.start = f a.stop ∧ b.start < a.stop

variable {f : α → β} {a b : Arc α}

/-- A start that lies in the image of an arc lies in the arc or coincides, after `f`,
with its start. -/
theorem mem_of_map (hf : Monotone f) (ha : ¬ a.Shrinks f) {t : α} (h : (a.map f).Mem (f t)) :
    a.Mem t ∨ (f t = f a.start ∧ t < a.start) := by
  have hlt : ∀ {x y : α}, f x < f y → x < y := fun h => lt_of_not_ge fun hle =>
    absurd (hf hle) (not_le.mpr h)
  unfold Shrinks at ha
  rcases lt_or_ge a.start a.stop with hproper | hwrap
  · have hmap : (a.map f).start < (a.map f).stop := by
      show f a.start < f a.stop
      grind
    obtain ⟨hstart, hstop⟩ := (mem_of_lt hmap _).mp h
    have hstop : t < a.stop := hlt hstop
    rcases lt_or_ge t a.start with hbefore | hafter
    · exact .inr ⟨le_antisymm (hf hbefore.le) hstart, hbefore⟩
    · exact .inl ((mem_of_lt hproper _).mpr ⟨hafter, hstop⟩)
  · have hmap : (a.map f).stop ≤ (a.map f).start := hf hwrap
    rcases (mem_of_le hmap _).mp h with hstart | hstop
    · rcases lt_or_ge t a.start with hbefore | hafter
      · exact .inr ⟨le_antisymm (hf hbefore.le) hstart, hbefore⟩
      · exact .inl ((mem_of_le hwrap _).mpr (.inl hafter))
    · exact .inl ((mem_of_le hwrap _).mpr (.inr (hlt hstop)))

/-- An arc that the map does not shrink contains the points of its first coarser point
that are not before its start. -/
theorem mem_of_first (hf : Monotone f) (ha : ¬ a.Shrinks f) {t : α} (h : f t = f a.start)
    (hle : a.start ≤ t) : a.Mem t := by
  rcases lt_or_ge a.start a.stop with hproper | hwrap
  · refine (mem_of_lt hproper _).mpr ⟨hle, lt_of_not_ge fun hge => ha ⟨hproper, ?_⟩⟩
    rw [← h]
    exact hf hge
  · exact (mem_of_le hwrap _).mpr (.inl hle)

/-- Arcs whose images meet do meet themselves, unless one of them shrinks. -/
theorem Meets.of_map (hf : Monotone f) (ha : ¬ a.Shrinks f) (hb : ¬ b.Shrinks f)
    (h : (a.map f).Meets (b.map f)) : a.Meets b := by
  rw [meets_iff] at h ⊢
  rcases h with h | h
  · rcases mem_of_map hf ha h with hmem | ⟨heq, hlt⟩
    · exact .inl hmem
    · exact .inr (mem_of_first hf hb heq.symm hlt.le)
  · rcases mem_of_map hf hb h with hmem | ⟨heq, hlt⟩
    · exact .inr hmem
    · exact .inl (mem_of_first hf ha heq.symm hlt.le)

/-- A start in an arc lies, after `f`, in its image, or in the last coarser point. -/
theorem Mem.map_or (hf : Monotone f) (ha : ¬ a.Shrinks f) (h : a.Mem b.start) :
    (a.map f).Mem (f b.start) ∨ a.StartsLast f b := by
  rcases lt_or_ge a.start a.stop with hproper | hwrap
  · obtain ⟨hstart, hstop⟩ := (mem_of_lt hproper _).mp h
    have hmap : (a.map f).start < (a.map f).stop :=
      lt_of_not_ge fun hge => ha ⟨hproper, hge⟩
    rcases (hf hstop.le).lt_or_eq with hlt | heq
    · exact .inl ((mem_of_lt hmap _).mpr ⟨hf hstart, hlt⟩)
    · exact .inr ⟨heq, hstop⟩
  · have hmap : (a.map f).stop ≤ (a.map f).start := hf hwrap
    rcases (mem_of_le hwrap _).mp h with hstart | hstop
    · exact .inl ((mem_of_le hmap _).mpr (.inl (hf hstart)))
    · rcases (hf hstop.le).lt_or_eq with hlt | heq
      · exact .inl ((mem_of_le hmap _).mpr (.inr hlt))
      · exact .inr ⟨heq, hstop⟩

/-- Arcs that meet have images that meet, unless one starts in the last coarser point
of the other. -/
theorem Meets.map_or (hf : Monotone f) (ha : ¬ a.Shrinks f) (hb : ¬ b.Shrinks f)
    (h : a.Meets b) :
    (a.map f).Meets (b.map f) ∨ a.StartsLast f b ∨ b.StartsLast f a := by
  rw [meets_iff] at h ⊢
  rcases h with h | h
  · rcases h.map_or hf ha with hmem | hlast
    · exact .inl (.inl hmem)
    · exact .inr (.inl hlast)
  · rcases h.map_or hf hb with hmem | hlast
    · exact .inl (.inr hmem)
    · exact .inr (.inr hlast)

/-- An arc that starts in the last coarser point of another, before its stop, meets it. -/
theorem StartsLast.meets (hf : Monotone f) (ha : ¬ a.Shrinks f) (h : a.StartsLast f b) :
    a.Meets b := by
  rw [meets_iff]
  rcases lt_or_ge a.start a.stop with hproper | hwrap
  · have hmap : f a.start < f a.stop := lt_of_not_ge fun hge => ha ⟨hproper, hge⟩
    have hstart : a.start ≤ b.start := le_of_not_gt fun hlt => by
      have := hf hlt.le
      rw [h.1] at this
      exact absurd hmap (not_lt.mpr this)
    exact .inl ((mem_of_lt hproper _).mpr ⟨hstart, h.2⟩)
  · exact .inl ((mem_of_le hwrap _).mpr (.inr h.2))

end Arc
