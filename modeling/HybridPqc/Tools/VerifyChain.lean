import HybridPqc.Composite.SigFormat
import HybridPqc.Tools.GenerateDemoChain
import HybridPqc.X509.ChainCorrect

/-!
# Tools.VerifyChain

`verify_chain.c` and `inspect_hybrid_cert.c`: the two tools that read certificate files. Their
output is modelled as the values that they print.
-/

namespace HybridPqc

section

variable {PKey : Type} (D : DemoLib PKey) (files : CString → Option Bytes)

def hybridX509ReadPem (path : CString) : Option X509 := (files path).bind D.pemReadX509

/-- What `verify_chain` writes. -/
inductive VerifyChainOutput where
  /-- `Usage: … ROOT.crt SERVER.crt` -/
  | usage
  /-- `Unable to read certificate chain` -/
  | unreadable
  /-- `PASS` or `FAIL` for each member, and `VALID` or `INVALID`. -/
  | report (result : HybridChainVerifyResult)
  deriving DecidableEq

/-- The exit status is `EXIT_SUCCESS`. -/
def VerifyChainOutput.success : VerifyChainOutput → Bool
  | .usage => false
  | .unreadable => false
  | .report result => result.chainValid

/-- `main` of `verify_chain.c`; `argv` is without the name of the program. -/
def verifyChainMain (now : Int) : List CString → VerifyChainOutput
  | [rootPath, serverPath] =>
    match hybridX509ReadPem D files rootPath, hybridX509ReadPem D files serverPath with
    | some root, some server =>
      .report (hybridVerifyChain D.toOpenssl now (some root) (some server))
    | _, _ => .unreadable
  | _ => .usage

/-- The lines of `inspect_hybrid_cert` that depend on the certificate, without the two names. -/
structure Inspection where
  algorithmsValid : Bool
  pqcExtension : Bool
  dilithiumSignatureLen : Nat
  sm2SignatureLen : Nat
  signatureLen : Nat
  deriving DecidableEq

inductive InspectOutput where
  /-- `Usage: … CERTIFICATE.crt` -/
  | usage
  /-- `Invalid hybrid certificate: …` -/
  | invalid
  | inspected (i : Inspection)
  deriving DecidableEq

/-- `main` of `inspect_hybrid_cert.c`; the exit status is `EXIT_SUCCESS` for `inspected`. -/
def inspectMain : List CString → InspectOutput
  | [path] =>
    match hybridX509ReadPem D files path with
    | none => .invalid
    | some certificate =>
      match hybridX509GetCompositePublicKey D.toOpenssl certificate,
        hybridX509GetSignature certificate with
      | some _, some signature =>
        match compositeParseSignature D.toCrypto signature with
        | none => .invalid
        | some (dilithiumSignature, sm2Signature) =>
          .inspected {
            algorithmsValid := hybridX509CompositeAlgorithmsValid certificate
            pqcExtension := hybridX509HasPqcExtension certificate
            dilithiumSignatureLen := dilithiumSignature.length
            sm2SignatureLen := sm2Signature.length
            signatureLen := signature.length }
      | _, _ => .invalid
  | _ => .usage

end

section

variable {PKey : Type} {D : DemoLib PKey} {files : CString → Option Bytes} {now : Int}
  {path rootPath serverPath : CString} {c root server : X509}

theorem verifyChainMain_success (hroot : hybridX509ReadPem D files rootPath = some root)
    (hserver : hybridX509ReadPem D files serverPath = some server) :
    (verifyChainMain D files now [rootPath, serverPath]).success = true ↔
      ChainAccepted D.toOpenssl now root server := by
  simp only [verifyChainMain, hroot, hserver, VerifyChainOutput.success, hybridVerifyChain_valid]
  constructor
  · intro h
    obtain ⟨_, _, hr, hs, h⟩ := h
    cases hr
    cases hs
    exact h
  · intro h
    exact ⟨root, server, rfl, rfl, h⟩

/-- A certificate with a composite key, composite algorithms, the marker and a signature in two
parts. -/
theorem inspectMain_inspected {key : HybridPublicKey PKey} {d s m : Bytes}
    (hread : hybridX509ReadPem D files path = some c)
    (hkey : hybridX509GetCompositePublicKey D.toOpenssl c = some key)
    (hparts : SignedParts D.toOpenssl c d s m) (hinner : IsComposite c.tbsCertificate.signature)
    (houter : IsComposite c.signatureAlgorithm) (hmarker : SingleMarker c) :
    inspectMain D files [path] = .inspected ⟨true, true, dilithiumSignatureBytes, s.length,
      dilithiumSignatureBytes + s.length⟩ := by
  obtain ⟨_, _, _, hunused, hparse, _⟩ := hparts
  have hspki := (hybridX509GetCompositePublicKey_some hkey).2.1
  have hinner' := algorithmIsCompositeAndAbsent_iff.mpr hinner
  have houter' := algorithmIsCompositeAndAbsent_iff.mpr houter
  have hsig : hybridX509GetSignature c = some c.signatureValue.data := by
    refine hybridX509GetSignature_eq.mpr ⟨hunused, ?_, rfl⟩
    intro h0
    simp [compositeParseSignature, h0] at hparse
  obtain ⟨hd, _, hdata⟩ := compositeParseSignature_some_iff.mp hparse
  simp only [inspectMain, hread, hkey, hsig, hparse]
  simp [hybridX509CompositeAlgorithmsValid, hybridX509CompositeSignatureAlgorithmsValid,
    hybridX509SubjectPublicKeyIsComposite, hinner', houter', hspki, hinner.1, houter.1,
    hybridX509HasPqcExtension_iff.mpr hmarker, hd, hdata]

/-- The tool takes no certificate without a composite key. -/
theorem inspectMain_invalid (hread : hybridX509ReadPem D files path = some c)
    (hkey : hybridX509GetCompositePublicKey D.toOpenssl c = none) :
    inspectMain D files [path] = .invalid := by
  simp [inspectMain, hread, hkey]

end

end HybridPqc
