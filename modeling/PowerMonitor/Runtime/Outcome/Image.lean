import PowerMonitor.Ota.Content
import PowerMonitor.Runtime.Steps

/-!
# The running image

Nothing writes to the partition that runs: `app_main` writes to no app partition, and an OTA task to
the other one only.
-/

namespace PowerMonitor.Runtime

open AbStore CJson Commands Ota

variable [Sha256] [Parser] [Base64]

omit [Sha256] [Parser] [Base64] in
@[simp] theorem boot_app (fl : OtaFlash) (env : BootEnv) : (fl.boot env).app = fl.app := by
  unfold OtaFlash.boot
  dsimp only
  split
  · split
    · rfl
    split <;> rfl
  · split <;> rfl

/-- The image in the partition `p` is the same in both worlds. -/
def SameImage (p : Partition) (w v : World) : Prop := v.flash.app p = w.flash.app p

namespace SameImage

variable {p : Partition} {w v : World}

omit [Sha256] [Parser] [Base64] in
theorem of_flash (h : v.flash = w.flash) : SameImage p w v := by rw [SameImage, h]

omit [Sha256] [Parser] [Base64] in
theorem reset (h : SameImage p w v) (env : BootEnv) : SameImage p w (v.reset env) := by
  rw [SameImage] at h ⊢
  rw [← h]
  exact congrFun (boot_app v.flash env) p

omit [Parser] [Base64] in
theorem call (h : v.flash = w.flash) (c : Call) (env : Env) {k : EspErr → World → World}
    (hk : ∀ e u, u.flash = w.flash → SameImage p w (k e u)) : SameImage p w (v.call c env k) :=
  World.call_ind ((of_flash (v := { v with nvs := _ }) h).reset _) fun e _ => hk e _ h

end SameImage

omit [Parser] [Base64] in
/-- `app_main` writes to no app partition. -/
theorem sameImage_main (p : Partition) (w : World) (env : Env) :
    SameImage p w (w.stepMain env) := by
  unfold World.stepMain
  split
  · split
    · rfl
    dsimp only
    split
    · exact SameImage.reset (v := { w with nvs := _ }) rfl _
    split <;> rfl
  · split <;> rfl
  · rfl
  next s _ _ =>
    have happ := congrFun (validate_frame s w.flash env.ota).2.1 p
    dsimp only
    split
    · exact SameImage.reset (v := { w with flash := _ }) happ _
    · exact happ
  · dsimp only
    split
    · exact SameImage.reset (v := { w with flash := _ }) rfl _
    · rfl
  · split <;> rfl
  · split
    · unfold World.reconcileEntry
      dsimp only
      split
      · rfl
      split
      · exact .call rfl _ env fun e v h => .of_flash h
      split
      · split <;> rfl
      · rfl
    · rfl
  · exact SameImage.reset rfl _
  · rfl
  · rfl

/-- An OTA task writes to the partition that does not run. -/
theorem sameImage_task (w : World) (k : ℕ) (env : Env) :
    SameImage w.flash.running w (w.stepTask k env) := by
  unfold World.stepTask
  split
  · rfl
  next t _ =>
  dsimp only
  split
  · split
    · rfl
    · split <;> rfl
  next m s _ =>
    split
    · rfl
    split
    · rfl
    refine World.progress_ind (fun nvs => SameImage.reset (v := { w with nvs := nvs }) rfl _)
      fun nvs ledger _ => ?_
    have himage := (install_frame m s w.flash env.ota).image
    dsimp only
    split
    · exact SameImage.reset (v := { w with
        nvs := nvs, ledger := ledger, flash := _, selected := _ }) himage _
    · exact himage
  · split
    · rfl
    · exact .call rfl _ env fun e v hv => .of_flash hv
  · exact SameImage.reset rfl _
  · rfl
  next e s _ _ =>
    have happ := congrFun (cancel_frame e s w.flash env.ota).2.1 w.flash.running
    split
    · exact SameImage.reset (v := { w with flash := _ }) happ _
    · exact happ
  · split
    · rfl
    · exact .call rfl _ env fun e v hv => .of_flash hv
  · rfl

/-- **The running image is never written.** -/
theorem sameImage_step (w : World) (a : Action) : SameImage w.flash.running w (w.step a) := by
  unfold World.step
  split
  · exact sameImage_main _ w a.env
  · rcases w.stepControl_frame a.env with ⟨nvs, rebooted, -, h⟩ | h
    · rw [h]
      exact SameImage.reset (v := { w with nvs := nvs, rebooted := rebooted }) rfl _
    · exact .of_flash h.flash
  · rcases w.stepNetwork_frame a.env with ⟨nvs, delivered, h⟩ | h
    · rw [h]
      exact SameImage.reset (v := { w with nvs := nvs, delivered := delivered }) rfl _
    · exact .of_flash h.flash
  next k _ => exact sameImage_task w k a.env
  · exact SameImage.reset rfl _

end PowerMonitor.Runtime
