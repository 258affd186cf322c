import Mathlib.Data.List.Nodup
import Mathlib.Logic.Function.Basic
import PoolExchange.Config

/-!
# Overrides — run-time values of the parameters, all of them or none

* `Config.patched`: the configuration that reads each parameter from a table of values and from the
  configuration itself where the table has none.  It is written out field by field, so that it says
  what each parameter is the value of.
* `Config.chosen`: the table that a list of overrides stands for.  A negative value stands for none,
  and a name that no parameter has is never looked up.
* **One pass over the overrides is the patch** (`foldl_override`), when no name comes twice.  The
  pass sets one parameter after another (`patched_set`), and the names tell the parameters apart
  (`Parameter.name_injective`).
* **All or nothing** (`withOverrides_all_or_nothing`): the result is valid, it is the patch exactly
  when the patch is valid and the configuration otherwise, and a second pass changes nothing.
* The order of the overrides does not matter (`withOverrides_perm`).
-/

namespace PoolExchange

namespace Config

/-! ### Names of the parameters -/

namespace Parameter

/-- No two parameters have one name. -/
theorem name_injective {p q : Parameter} (h : p.name = q.name) : p = q :=
  List.inj_on_of_nodup_map (by decide) p.mem_all q.mem_all h

/-- A text is looked up to the parameter that it names. -/
theorem ofName?_eq_some_iff {s : String} {p : Parameter} : ofName? s = some p ↔ p.name = s := by
  constructor
  · intro h
    simpa using List.find?_some h
  · rintro rfl
    obtain ⟨q, hq⟩ : ∃ q, ofName? p.name = some q :=
      Option.isSome_iff_exists.mp (List.find?_isSome.mpr ⟨p, p.mem_all, by simp⟩)
    have hname : q.name = p.name := by simpa using List.find?_some hq
    rw [hq, name_injective hname]

end Parameter

/-! ### The patched configuration -/

/-- The configuration with every parameter that has a value in the table replaced by it.  A pause
is in force when its value is positive, and the sizer is no parameter. -/
def patched (c : Config) (value? : Parameter → Option Nat) : Config where
  queue :=
    { minSwaps := (value? .minSwaps).getD c.queue.minSwaps
      maxSwaps := (value? .maxSwaps).getD c.queue.maxSwaps
      poolCycle := (value? .poolCycle).getD c.queue.poolCycle }
  slipFloors :=
    { layer1 := (value? .layer1Floor).getD c.slipFloors.layer1
      synthetic := (value? .syntheticFloor).getD c.slipFloors.synthetic
      trade := (value? .tradeFloor).getD c.slipFloors.trade
      secured := (value? .securedFloor).getD c.slipFloors.secured
      derived := (value? .derivedFloor).getD c.slipFloors.derived }
  streaming :=
    { maxLength := (value? .maxLength).getD c.streaming.maxLength
      maxLengthNative := (value? .maxLengthNative).getD c.streaming.maxLengthNative
      pause := ((value? .pause).map fun n => decide (0 < n)).getD c.streaming.pause
      sizer := c.streaming.sizer }
  pricing :=
    { virtualMultiplier := (value? .virtualMultiplier).getD c.pricing.virtualMultiplier
      outboundFee := (value? .outboundFee).getD c.pricing.outboundFee }

/-- An empty table changes nothing. -/
@[simp] theorem patched_none (c : Config) : c.patched (fun _ => none) = c := rfl

/-- A second patch with the same table changes nothing. -/
@[simp] theorem patched_patched (c : Config) (value? : Parameter → Option Nat) :
    (c.patched value?).patched value? = c.patched value? := by
  have again {α : Type} (o : Option α) (a : α) : o.getD (o.getD a) = o.getD a := by cases o <;> rfl
  simp only [patched, again]

/-- A parameter that is set before the patch is one more entry of the table. -/
theorem patched_set (c : Config) {value? : Parameter → Option Nat} {p : Parameter}
    (h : value? p = none) (n : Nat) :
    (p.set n c).patched value? = c.patched (Function.update value? p (some n)) := by
  cases p <;> simp [patched, Parameter.set, h]

/-! ### The table of a list of overrides -/

/-- The value that a list of overrides chooses for a parameter. -/
def chosen (overrides : List (String × Int)) (p : Parameter) : Option Nat :=
  (overrides.lookup p.name).bind fun v => if v < 0 then none else some v.toNat

theorem chosen_eq_none_of_not_mem {overrides : List (String × Int)} {p : Parameter}
    (h : p.name ∉ overrides.map Prod.fst) : chosen overrides p = none := by
  have hl : overrides.lookup p.name = none := by
    rw [List.lookup_eq_none_iff]
    rintro ⟨s, v⟩ hm
    simpa using fun heq : p.name = s => h (heq ▸ List.mem_map_of_mem hm)
  simp [chosen, hl]

/-- The first override decides about the parameter that it names. -/
theorem chosen_cons (s : String) (v : Int) (overrides : List (String × Int)) (p : Parameter) :
    chosen ((s, v) :: overrides) p =
      if p.name = s then if v < 0 then none else some v.toNat else chosen overrides p := by
  rw [chosen, List.lookup_cons]
  by_cases h : p.name = s
  · rw [beq_iff_eq.mpr h, if_pos h]
    rfl
  · rw [beq_false_of_ne h, if_neg h]
    rfl

/-- An override that is negative, or that names no parameter, leaves the table as it is. -/
theorem chosen_cons_of_idle {s : String} {v : Int} {overrides : List (String × Int)}
    (hfresh : s ∉ overrides.map Prod.fst) (h : v < 0 ∨ Parameter.ofName? s = none) :
    chosen ((s, v) :: overrides) = chosen overrides := by
  funext p
  rw [chosen_cons]
  split_ifs with hp hv
  · subst hp
    exact (chosen_eq_none_of_not_mem hfresh).symm
  · rcases h with hneg | hnone
    · exact absurd hneg hv
    · rw [Parameter.ofName?_eq_some_iff.mpr hp] at hnone
      cases hnone
  · rfl

/-- Any other override is one entry of the table. -/
theorem chosen_cons_of_names {s : String} {v : Int} {p : Parameter} (hv : ¬v < 0)
    (hp : Parameter.ofName? s = some p) (overrides : List (String × Int)) :
    chosen ((s, v) :: overrides) = Function.update (chosen overrides) p (some v.toNat) := by
  have hname : p.name = s := Parameter.ofName?_eq_some_iff.mp hp
  funext q
  rw [chosen_cons, Function.update_apply, ← hname]
  by_cases hq : q = p
  · simp [hq, hv]
  · rw [if_neg hq, if_neg fun h => hq (Parameter.name_injective h)]

/-! ### The pass -/

/-- **One pass is the patch.**  The induction is on the overrides: each of them either does nothing
or sets one parameter, which no later one names again. -/
theorem foldl_override {overrides : List (String × Int)}
    (hnodup : (overrides.map Prod.fst).Nodup) (c : Config) :
    overrides.foldl override c = c.patched (chosen overrides) := by
  induction overrides generalizing c with
  | nil => exact (patched_none c).symm
  | cons entry overrides ih =>
    obtain ⟨s, v⟩ := entry
    obtain ⟨hfresh, hrest⟩ := List.nodup_cons.mp hnodup
    rw [List.foldl_cons, ih hrest]
    by_cases hv : v < 0
    · rw [chosen_cons_of_idle hfresh (.inl hv), override, if_pos hv]
    · cases hp : Parameter.ofName? s with
      | none => rw [chosen_cons_of_idle hfresh (.inr hp), override, if_neg hv, hp]
      | some p =>
        have hunset : chosen overrides p = none :=
          chosen_eq_none_of_not_mem (Parameter.ofName?_eq_some_iff.mp hp ▸ hfresh)
        rw [chosen_cons_of_names hv hp, override, if_neg hv, hp]
        exact patched_set c hunset v.toNat

theorem isValid_iff {c : Config} : c.isValid = true ↔ c.validate = .ok () := by
  rw [isValid]
  cases c.validate <;> simp

/-- The result is the patch or the configuration, whichever the check of the patch says. -/
theorem withOverrides_eq (c : Config) {overrides : List (String × Int)}
    (hnodup : (overrides.map Prod.fst).Nodup) :
    c.withOverrides overrides =
      if (c.patched (chosen overrides)).validate = .ok () then c.patched (chosen overrides)
      else c := by
  simp only [withOverrides, foldl_override hnodup, isValid_iff]

/-- **All or nothing.**  Overrides of a valid configuration, no name of which comes twice, lead to a
valid configuration.  It is the patch if that is valid and the configuration itself if not, and the
same overrides change nothing about it. -/
theorem withOverrides_all_or_nothing (c : Config) (overrides : List (String × Int))
    (hvalid : c.validate = .ok ()) (hnodup : (overrides.map Prod.fst).Nodup) :
    (c.withOverrides overrides).validate = .ok () ∧
    (c.withOverrides overrides = c ∨ c.withOverrides overrides = c.patched (chosen overrides)) ∧
    ((c.patched (chosen overrides)).validate = .ok () →
      c.withOverrides overrides = c.patched (chosen overrides)) ∧
    (c.withOverrides overrides).withOverrides overrides = c.withOverrides overrides := by
  rw [withOverrides_eq c hnodup]
  split_ifs with hpatch
  · refine ⟨hpatch, .inr rfl, fun _ => rfl, ?_⟩
    rw [withOverrides_eq _ hnodup, patched_patched, if_pos hpatch]
  · refine ⟨hvalid, .inl rfl, fun h => absurd h hpatch, ?_⟩
    rw [withOverrides_eq c hnodup, if_neg hpatch]

/-- Overrides of five kinds: a value for each of two parameters, a switch, a value that says "as
configured" and a name that no parameter has. -/
def mixedOverrides : List (String × Int) :=
  [("MaxSwapsPerBlock", 20), ("MinSwapsPerBlock", -1), ("StreamingSwapPause", 1),
    ("SynthSlipMinBps", 15), ("Unrelated", 3)]

/-- The three that count are all set on the default configuration. -/
theorem withOverrides_all_or_nothing_mixed :
    (({} : Config).withOverrides mixedOverrides =
      { queue.maxSwaps := 20, slipFloors.synthetic := 15, streaming.pause := true }) ∧
    (({} : Config).withOverrides mixedOverrides).withOverrides mixedOverrides =
      ({} : Config).withOverrides mixedOverrides := by
  obtain ⟨-, -, hall, hagain⟩ := withOverrides_all_or_nothing {} mixedOverrides
    (by decide) (by decide)
  exact ⟨(hall (by decide)).trans (by decide), hagain⟩

/-- One value that does not pass the check keeps all the others out. -/
example : ({} : Config).withOverrides [("L1SlipMinBps", 20), ("VirtualMultSynthsBasisPoints", 0)] =
    {} := by
  decide

/-! ### The order of the overrides -/

/-- The table does not depend on the order, since each name is looked up once. -/
theorem chosen_perm {overrides others : List (String × Int)} (h : overrides.Perm others)
    (hnodup : (overrides.map Prod.fst).Nodup) : chosen overrides = chosen others := by
  induction h with
  | nil => rfl
  | cons entry _ ih =>
    funext p
    rw [chosen_cons, chosen_cons, ih (List.nodup_cons.mp hnodup).2]
  | swap first second rest =>
    obtain ⟨s₁, v₁⟩ := first
    obtain ⟨s₂, v₂⟩ := second
    have hne : s₂ ≠ s₁ := fun heq => (List.nodup_cons.mp hnodup).1 (heq ▸ List.mem_cons_self)
    funext p
    simp only [chosen_cons]
    by_cases h₁ : p.name = s₁
    · rw [if_neg fun h₂ => hne (h₂.symm.trans h₁), if_pos h₁, if_pos h₁]
    · rw [if_neg h₁, if_neg h₁]
  | trans hfirst _ ih₁ ih₂ =>
    exact (ih₁ hnodup).trans (ih₂ ((hfirst.map Prod.fst).nodup_iff.mp hnodup))

/-- **The order of the overrides does not matter**, not even to whether they are dropped. -/
theorem withOverrides_perm (c : Config) {overrides others : List (String × Int)}
    (h : overrides.Perm others) (hnodup : (overrides.map Prod.fst).Nodup) :
    c.withOverrides overrides = c.withOverrides others := by
  rw [withOverrides_eq c hnodup, chosen_perm h hnodup,
    withOverrides_eq c ((h.map Prod.fst).nodup_iff.mp hnodup)]

end Config

end PoolExchange
