import StereoCamera.Lib.Transition

/-! Ending a machine with some of its actions only, whatever their order. -/

namespace Transition

variable {σ α : Type*}

variable {step : σ → α → Option σ} {internal : α → Prop} {done : σ → Prop}

end Transition
