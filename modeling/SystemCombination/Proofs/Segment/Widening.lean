import SystemCombination.Proofs.Segment.NearestMatches

/-! Alignments with a greater radius. What a greater radius adds to the matches in a line is farther
away than what was there, so the nearest match stays the nearest, and every system that a cell names
is still named, at another token if need be. -/

namespace SystemCombination

/-- The same settings but for the radius, which is not less. -/
structure InputSettings.Widens (wide narrow : InputSettings) : Prop where
  pickBest : wide.pickBest = narrow.pickBest
  transitive : wide.transitive = narrow.transitive
  radius : narrow.radius ≤ wide.radius

namespace Alignment

section Matches

variable {radius radius' : Nat} {lines : List (List String)} {place token : TokenRef}

theorem Matches.mono (wider : radius ≤ radius') (h : Matches radius lines place token) :
    Matches radius' lines place token where
  apart := h.apart
  word := h.word
  near := Nat.le_trans h.near wider

theorem Nearest.mono (wider : radius ≤ radius') (h : Nearest radius lines place token) :
    Nearest radius' lines place token where
  isMatch := h.isMatch.mono wider
  best position isMatch := by
    -- A match that the lesser radius leaves out is farther away than each that it takes in.
    by_cases within : distance place.position position ≤ radius
    · exact h.best position ⟨isMatch.apart, isMatch.word, within⟩
    · have near := h.isMatch.near
      exact .inl (by omega)

end Matches

section Widens

variable {wide narrow : InputSettings}

theorem at_direct_mono (wider : wide.Widens narrow) (lines : List (List String))
    (place : TokenRef) : (direct narrow lines).at place ⊆ (direct wide lines).at place := by
  intro token member
  cases mode : narrow.pickBest with
  | false =>
    have isMatch := (mem_at_direct_of_all mode).mp member
    apply (mem_at_direct_of_all (wider.pickBest.trans mode)).mpr
    exact isMatch.mono wider.radius
  | true =>
    have isNearest := (mem_at_direct_of_nearest mode).mp member
    apply (mem_at_direct_of_nearest (wider.pickBest.trans mode)).mpr
    exact isNearest.mono wider.radius

/-- What is named through a third system is still named: the match that leads there is kept, and it
has a match there as before. -/
theorem systems_table_mono (wider : wide.Widens narrow) (lines : List (List String))
    (place : TokenRef) :
    systemsOf ((table narrow lines).at place) ⊆ systemsOf ((table wide lines).at place) := by
  intro system named
  rw [mem_systems_table] at named ⊢
  rcases named with ⟨position, isMatch⟩ | ⟨mediated, apart, hop, isHop, position, isMatch⟩
  · left
    exact ⟨position, isMatch.mono wider.radius⟩
  · right
    have stillHop := at_direct_mono wider lines place isHop
    exact ⟨wider.transitive.trans mediated, apart, hop, stillHop, position,
      isMatch.mono wider.radius⟩

theorem at_table_mono_of_all (wider : wide.Widens narrow) (every : narrow.pickBest = false)
    (lines : List (List String)) (place : TokenRef) :
    (table narrow lines).at place ⊆ (table wide lines).at place := by
  intro token member
  rw [mem_at_table_of_all every] at member
  rw [mem_at_table_of_all (wider.pickBest.trans every)]
  rcases member with isMatch | ⟨mediated, apart, hop, isHop, isMatch⟩
  · left
    exact isMatch.mono wider.radius
  · right
    exact ⟨wider.transitive.trans mediated, apart, hop, isHop.mono wider.radius,
      isMatch.mono wider.radius⟩

end Widens

/-- What a third system mediates stands behind the matches. -/
theorem at_direct_isPrefix (settings : InputSettings) (lines : List (List String))
    (place : TokenRef) :
    (direct settings lines).at place <+: (table settings lines).at place := by
  cases mode : settings.transitive with
  | false =>
    simpa only [table_of_direct mode] using List.prefix_rfl
  | true =>
    rw [table_of_transitive mode, at_close]
    exact List.prefix_append ..

/-- A greater radius loses no support. A cell names every system that it names under the lesser
radius. The matches are still matches, the nearest ones still the nearest, and where every match
counts, so is everything that a third system mediates. Mediation itself takes no alignment away: it
adds to the matches, behind them. -/
theorem table_of_wider_radius {radius radius' : Nat} (wider : radius ≤ radius')
    (settings : InputSettings) (lines : List (List String)) (place : TokenRef) :
    let aligned (radius : Nat) (pickBest transitive : Bool) :=
      (table { settings with radius, pickBest, transitive } lines).at place
    (∀ pickBest transitive,
      systemsOf (aligned radius pickBest transitive) ⊆
        systemsOf (aligned radius' pickBest transitive)) ∧
    (∀ pickBest, aligned radius pickBest false ⊆ aligned radius' pickBest false) ∧
    (∀ transitive, aligned radius false transitive ⊆ aligned radius' false transitive) ∧
    ∀ radius pickBest, aligned radius pickBest false <+: aligned radius pickBest true := by
  intro aligned
  have widens (pickBest transitive : Bool) :
      { settings with radius := radius', pickBest, transitive : InputSettings }.Widens
        { settings with radius, pickBest, transitive } := ⟨rfl, rfl, wider⟩
  refine ⟨fun pickBest transitive => ?named, fun pickBest => ?direct, fun transitive => ?every,
    fun radius pickBest => ?mediated⟩
  case named => exact systems_table_mono (widens pickBest transitive) lines place
  case direct => exact at_direct_mono (widens pickBest false) lines place
  case every => exact at_table_mono_of_all (widens false transitive) rfl lines place
  case mediated =>
    exact at_direct_isPrefix { settings with radius, pickBest, transitive := true } lines place

/-- Another system mediates for a line whose matches are all too far away. With one more position
to either side a token there is the nearest match itself, and takes the place of the other. -/
theorem table_of_wider_radius_of_displaced_token :
    ∃ (settings : InputSettings) (lines : List (List String)),
      let aligned (radius : Nat) :=
        (table { settings with radius, pickBest := true, transitive := true } lines).at ⟨0, 4⟩
      2 ≤ 3 ∧ aligned 2 = [⟨1, 6⟩, ⟨2, 8⟩] ∧ aligned 3 = [⟨1, 6⟩, ⟨2, 1⟩] ∧
      systemsOf (aligned 2) ⊆ systemsOf (aligned 3) := by
  let settings : InputSettings := ⟨[1, 1, 1], 2, true, true⟩
  let lines := [["u", "u", "u", "u", "a"], ["v", "v", "v", "v", "v", "v", "a"],
    ["w", "a", "w", "w", "w", "w", "w", "w", "a"]]
  let matched (radius : Nat) := (direct { settings with radius } lines).at
  have wider : 2 ≤ 3 := by decide
  have closed (radius : Nat) : (table { settings with radius } lines).at ⟨0, 4⟩ =
      closeCell true (matched radius) 0 (matched radius ⟨0, 4⟩) := by
    rw [table_of_transitive rfl, at_close]
  have narrow : matched 2 ⟨0, 4⟩ = [⟨1, 6⟩] := by decide +kernel
  have wide : matched 3 ⟨0, 4⟩ = [⟨1, 6⟩, ⟨2, 1⟩] := by decide +kernel
  have onward : matched 2 ⟨1, 6⟩ = [⟨0, 4⟩, ⟨2, 8⟩] := by decide +kernel
  have onward' : matched 3 ⟨1, 6⟩ = [⟨0, 4⟩, ⟨2, 8⟩] := by decide +kernel
  have onward'' : matched 3 ⟨2, 1⟩ = [⟨0, 4⟩] := by decide +kernel
  have displaced : closeCell true (matched 2) 0 (matched 2 ⟨0, 4⟩) = [⟨1, 6⟩, ⟨2, 8⟩] := by
    rw [narrow]
    simp [closeCell, onward, distinct, knownBy]
  have nearest : closeCell true (matched 3) 0 (matched 3 ⟨0, 4⟩) = [⟨1, 6⟩, ⟨2, 1⟩] := by
    rw [wide]
    simp [closeCell, onward', onward'', distinct, knownBy]
  have named := (table_of_wider_radius wider settings lines ⟨0, 4⟩).1 true true
  exact ⟨settings, lines, wider, (closed 2).trans displaced, (closed 3).trans nearest, named⟩

end Alignment

end SystemCombination
