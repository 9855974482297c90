import Laplace.Machine.Program

/-! # Programs under other effects

A translation carries out every effect of a program by a program of other effects. It goes through sequencing, so that
programs over different effects can be compared effect by effect.
-/

namespace Laplace.Machine.Program

universe u u' v

variable {Effect : Type u} {Reply : Effect → Type v} {α β : Type v}
  {Effect' : Type u'} {Reply' : Effect' → Type v}
  (carry : (effect : Effect) → Program Effect' Reply' (Reply effect))

/-- Two programs that perform the same effect and go on alike. -/
theorem call_congr {effect : Effect} {next next' : Reply effect → Program Effect Reply α}
    (same : ∀ reply, next reply = next' reply) : Program.call effect next = .call effect next' :=
  congrArg (Program.call effect) (funext same)

/-- Each effect is carried out by a program of the other effects. -/
def translate : Program Effect Reply α → Program Effect' Reply' α
  | .done value => .done value
  | .call effect next => carry effect >>= fun reply => (next reply).translate

theorem translate_bind (program : Program Effect Reply α) (rest : α → Program Effect Reply β) :
    (program >>= rest).translate carry =
      program.translate carry >>= fun value => (rest value).translate carry := by
  induction program with
  | done value => rfl
  | call effect next ih =>
    simp only [call_bind, translate, ih, bind_bind]

end Laplace.Machine.Program
