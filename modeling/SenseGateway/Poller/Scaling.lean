import SenseGateway.Poller.Device
import SenseGateway.Python.RoundingOrder

namespace SenseGateway.Poller

open Python

section convert

variable {scale offset : PyFloat} {decimalPlaces : ℤ}

theorem roundDecimals_finite {x : PyFloat} {v : ℚ}
    (h : roundDecimals x decimalPlaces = .ok (.finite v)) :
    ∃ b, x = .finite b ∧ roundDouble
      (roundHalfEven (b / (10 : ℚ) ^ (-decimalPlaces)) * (10 : ℚ) ^ (-decimalPlaces)) = .finite v := by
  cases x with
  | finite b =>
    refine ⟨b, rfl, ?_⟩
    simp only [roundDecimals] at h
    split at h
    · cases h
      assumption
    · cases h
  | infinity negative => cases h
  | nan => cases h

end convert

section between

variable {settings : Settings} {tag : Json} {low mid high : List ℤ} {a b c x z : PyFloat}

end between

end SenseGateway.Poller
