import Nexus.Lib.Text
import Nexus.Sdn.Apply

/-!
# The text of a remote UPID

`FromStr` and `Display` of `RemoteUpid` in `lib/pdm-api-types/src/remote_upid.rs`. The pattern of safe ids is a
parameter: no safe id has the separator `!`, so the parser cuts where the printer has put it, whatever the native UPID
is (`fromStr_toString`).
-/

namespace Nexus.Sdn

variable (formats : Formats)

def RemoteUpid.tryFromTyped (ty remote upid : String) : Except ApiError RemoteUpid :=
  if formats.safeId remote then
    match RemoteType.fromStr ty with
    | some remoteType => .ok ⟨remote, remoteType, upid⟩
    | none => .error (.other ("unknown variant `" ++ ty ++ "`, expected `pve` or `pbs`"))
  else .error (.other "bad remote id in remote upid")

def RemoteUpid.fromStr (s : String) : Except ApiError RemoteUpid :=
  match Lib.Text.splitOnce '!' s with
  | none => .error (.other "missing '!' separator in remote upid")
  | some (remoteAndType, upid) => match Lib.Text.splitOnce ':' remoteAndType with
    | some (ty, remote) => tryFromTyped formats ty remote upid
    | none => tryFrom formats remoteAndType upid

def RemoteUpid.toString (u : RemoteUpid) : String := u.remoteType.toString ++ ":" ++ u.remote ++ "!" ++ u.upid

theorem RemoteUpid.fromStr_toString {u} (hsafe : formats.safeId u.remote)
    (hmark : '!' ∉ u.remote.toList) : fromStr formats u.toString = .ok u := by
  obtain ⟨remote, remoteType, upid⟩ := u
  have hty : '!' ∉ remoteType.toString.toList ∧ ':' ∉ remoteType.toString.toList := by
    cases remoteType <;> decide
  have hupid : Lib.Text.splitOnce '!' (toString ⟨remote, remoteType, upid⟩) =
      some (remoteType.toString ++ ":" ++ remote, upid) :=
    Lib.Text.splitOnce_eq_some.mpr ⟨by simp [toString], by simp [hty.1, hmark]⟩
  have hrem : Lib.Text.splitOnce ':' (remoteType.toString ++ ":" ++ remote) = some (remoteType.toString, remote) :=
    Lib.Text.splitOnce_eq_some.mpr ⟨by simp, hty.2⟩
  have parsed : RemoteType.fromStr remoteType.toString = some remoteType := by
    cases remoteType <;> rfl
  simp only [fromStr, hupid, hrem, tryFromTyped, parsed]
  exact if_pos hsafe

/-- **The printed form of a remote UPID reads back as the same, and no two have the same printed form**, for safe ids as
the names of the remotes and any native UPIDs. -/
theorem remoteUpid_codec (unmarked : ∀ s, formats.safeId s → '!' ∉ s.toList) (u v : RemoteUpid)
    (hu : formats.safeId u.remote) (hv : formats.safeId v.remote) :
    RemoteUpid.fromStr formats u.toString = .ok u ∧ (u.toString = v.toString → u = v) := by
  have parsed : ∀ w : RemoteUpid, formats.safeId w.remote → RemoteUpid.fromStr formats w.toString = .ok w :=
    fun w hw => RemoteUpid.fromStr_toString formats hw (unmarked w.remote hw)
  refine ⟨parsed u hu, fun h => ?_⟩
  have hboth := parsed u hu
  rw [h, parsed v hv] at hboth
  exact (Except.ok.inj hboth).symm

def Sample.safeFormats : Formats :=
  ⟨fun s => s.toList.all fun c => c.isAlphanum || c ∈ ['.', '_', '-'], fun _ => false, fun _ => false⟩

theorem remoteUpid_codec_separators :
    RemoteUpid.fromStr Sample.safeFormats "pbs:dc-1.a!UPID:n!x:" = .ok ⟨"dc-1.a", .pbs, "UPID:n!x:"⟩ := by
  have unmarked : ∀ s, Sample.safeFormats.safeId s → '!' ∉ s.toList := fun s h hmark =>
    absurd (List.all_eq_true.mp h '!' hmark) (by decide)
  exact (remoteUpid_codec _ unmarked ⟨"dc-1.a", .pbs, "UPID:n!x:"⟩ ⟨"dc-1.a", .pbs, ""⟩ (by decide) (by decide)).1

/-- A name that is not checked may hold the separator. -/
example : RemoteUpid.toString ⟨"a!b", .pve, "c"⟩ = RemoteUpid.toString ⟨"a", .pve, "b!c"⟩ := by decide

end Nexus.Sdn
