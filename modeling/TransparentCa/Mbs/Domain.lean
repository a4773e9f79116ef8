import TransparentCa.JavaTime

/- The values Measurement Bound Storage hands around: certificates and keys as far as
   the program reads them, self-signed bundles and their backups, and the trust package
   that the certificate authority signs with. -/
namespace Mbs
open Java

structure PublicKey where
  algorithm : JString
  encoded : Bytes
  deriving DecidableEq

structure PrivateKey where
  algorithm : JString
  encoded : Bytes
  deriving DecidableEq

/-- One item of a name as `getSubjectAlternativeNames()` reports it: an `Integer`, a
`String`, `null`, or an object of another class. -/
inductive SanItem where
  | integer (n : Int)
  | string (s : JString)
  | null
  | object (className : JString)
  deriving DecidableEq

/-- An X.509 certificate: its DER form and what the accessors the program calls return.
`getSubjectAlternativeNames()` is `none` for `null` and may throw. -/
structure X509Certificate where
  encoded : Bytes
  publicKey : PublicKey
  sigAlgName : JString
  subjectAlternativeNames : Except Throwable (Option (List (List SanItem)))
  deriving DecidableEq

structure AttestationToken where
  tokenBase64 : JString
  deriving DecidableEq

structure SelfSignedBundle where
  certificate : X509Certificate
  privateKey : PrivateKey
  attestationToken : AttestationToken
  deriving DecidableEq

structure TrustPackage where
  selfSignedBundles : List SelfSignedBundle
  crossSignedCertificates : List X509Certificate
  deriving DecidableEq

/-- The four artifacts of a self-signed bundle; `equals` compares their bytes. -/
structure SelfSignedBundleBackup where
  certBytes : Bytes
  kmsEncryptedDataKey : Bytes
  aeadEncryptedPrivateKey : Bytes
  attestationDocBytes : Bytes
  deriving DecidableEq

structure CrossSignedCertificateBackup where
  certBytes : Bytes
  deriving DecidableEq

end Mbs
