import VectorPath.Proofs.Path.Failure

/-!
# Rounding beforehand

A precision rounds every coordinate and every number field once, and nothing else. So a path is
written to a precision as the path of the rounded numbers is written to none, with the same text or
the same failure. This includes the refusal of numbers that are not finite: rounding leaves them as
they are, and makes no finite number one of them.
-/

namespace VectorPath

/-- A binary64 number to some places; everything else is left alone. -/
def Value.toPlaces (places : Fin 16) : Value → Value
  | .number (.float x) => .float (x.toPlaces places.val)
  | v => v

namespace Binary64

variable {x : Binary64}

theorem toPlaces_of_not_isFinite (places : ℕ) (hx : x.isFinite = false) :
    x.toPlaces places = x := by
  cases x with
  | finite => cases hx
  | nan => rfl
  | infinity s => rfl

theorem isFinite_toPlaces (places : ℕ) (x : Binary64) :
    (x.toPlaces places).isFinite = x.isFinite := by
  cases hx : x.isFinite with
  | true => exact toPlaces_isFinite places hx
  | false => rw [toPlaces_of_not_isFinite places hx, hx]

end Binary64

namespace WritingSettings

variable {places : Fin 16} {policy : Policy} {v : Value}

theorem allow_toPlaces (precision : Option (Fin 16)) (v : Value) :
    allow ⟨precision, policy⟩ v = allow ⟨none, policy⟩ (v.toPlaces places) := by
  cases policy with
  | passThrough => rfl
  | reject =>
      cases v with
      | number n =>
          cases n with
          | int i => rfl
          | float x =>
              change (if x.isFinite then _ else _) =
                if (x.toPlaces places.val).isFinite then _ else _
              rw [Binary64.isFinite_toPlaces]
              cases hx : x.isFinite with
              | true => rfl
              | false =>
                  -- The fault shows the number, which rounding has not changed.
                  rw [Value.toPlaces, Binary64.toPlaces_of_not_isFinite places.val hx]
                  rfl
      | _ => rfl

theorem number_toPlaces {n : Number} (hv : v.number? = some n) :
    number ⟨some places, policy⟩ v = number ⟨none, policy⟩ (v.toPlaces places) := by
  have hround : round ⟨some places, policy⟩ v = round ⟨none, policy⟩ (v.toPlaces places) := by
    cases v with
    | bool b => rfl
    | number m => cases m <;> rfl
    | _ => cases hv
  unfold number
  rw [allow_toPlaces (some places) v, hround]

end WritingSettings

/-- A path of numbers is written to a precision as the path of the rounded numbers is written to
none. -/
theorem precision_is_rounding_beforehand (places : Fin 16) (policy : Policy) {cs : List Command}
    (h : ∀ c ∈ cs, c.HasNumbers) :
    WritingSettings.pathOf ⟨some places, policy⟩ (.list (cs.map Command.toValue)) =
      WritingSettings.pathOf ⟨none, policy⟩
        (.list ((cs.map (Command.mapNumbers (Value.toPlaces places))).map Command.toValue)) := by
  rw [WritingSettings.pathOf_toValue, WritingSettings.pathOf_toValue]
  apply WritingSettings.commands_mapNumbers
  intro c hc v hv
  obtain ⟨n, hn⟩ := h c hc v hv
  exact WritingSettings.number_toPlaces hn

def half (negative : Bool) : Value := .float (.ofRatio negative 1 2)

/-- An arc whose halves would all be written as zero if the flags were rounded too. -/
def halvedArc : Command :=
  ⟨true, .arcTo ⟨.int 3, half false⟩ (half true) (half false) (half true) ⟨.bool true, half true⟩⟩

theorem halvedArc_rounding_beforehand :
    WritingSettings.pathOf ⟨some 0, .reject⟩ (.list ([halvedArc].map Command.toValue)) =
        WritingSettings.pathOf ⟨none, .reject⟩
          (.list (([halvedArc].map (Command.mapNumbers (Value.toPlaces 0))).map Command.toValue)) ∧
      (WritingSettings.pathOf ⟨some 0, .reject⟩
          (.list ([halvedArc].map Command.toValue))).toOption = some "a3 0 0 1 1 1 0" := by
  have hnumbers : ∀ c ∈ [halvedArc], c.HasNumbers := by
    intro c hc v hv
    obtain rfl := List.mem_singleton.mp hc
    have hv' : v ∈ [.int 3, half false, half true, .bool true, half true] := hv
    simp only [List.mem_cons, List.not_mem_nil, or_false] at hv'
    rcases hv' with rfl | rfl | rfl | rfl | rfl <;> exact ⟨_, rfl⟩
  have hround := precision_is_rounding_beforehand 0 .reject hnumbers
  refine ⟨hround, ?_⟩
  rw [hround]
  decide +kernel

end VectorPath
