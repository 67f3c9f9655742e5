import Keyring.Arith.Binary
import Keyring.Arith.Modular
import Keyring.Asn1.Lenient
import Keyring.Asn1.Oid
import Keyring.Asn1.Signature
import Keyring.Asn1.Strict
import Keyring.Asn1.Tag
import Keyring.Asn1.Write
import Keyring.Bytes
import Keyring.Certificate.Encoding
import Keyring.Cipher.Aes
import Keyring.Cipher.Cbc
import Keyring.Cipher.Protection
import Keyring.Cipher.TripleDes
import Keyring.Container.Contents
import Keyring.Container.Encoding
import Keyring.Dsa.Key
import Keyring.Dsa.Signature
import Keyring.Elliptic.Curve
import Keyring.Elliptic.Group
import Keyring.Elliptic.Key
import Keyring.Elliptic.Named
import Keyring.Elliptic.PointForm
import Keyring.Elliptic.Signature
import Keyring.Entropy
import Keyring.Error
import Keyring.Hash.Algorithm
import Keyring.Hash.MerkleDamgard
import Keyring.Hash.Word32
import Keyring.Hash.Word64
import Keyring.Kdf.Chained
import Keyring.Kdf.Container
import Keyring.Kdf.Pbkdf2
import Keyring.Kdf.Scrypt
import Keyring.Key.Identifier
import Keyring.Key.Info
import Keyring.Key.Inspection
import Keyring.Key.Parameters
import Keyring.Key.Parse
import Keyring.Key.Private
import Keyring.Key.Public
import Keyring.Key.Text
import Keyring.Pem.Base64
import Keyring.Pem.Block
import Keyring.Policy
import Keyring.Proofs.Asn1.Strict
import Keyring.Proofs.Bytes
import Keyring.Proofs.Key.Curves
import Keyring.Proofs.Key.Inspection
import Keyring.Proofs.Key.Provenance
import Keyring.Proofs.Outcome
import Keyring.Proofs.Provider.Curves
import Keyring.Proofs.Provider.Narrow
import Keyring.Proofs.Provider.Standard
import Keyring.Proofs.Pss.Bits
import Keyring.Proofs.Pss.Encoding
import Keyring.Proofs.Pss.Mask
import Keyring.Proofs.Pss.Padding
import Keyring.Proofs.Pss.Refusal
import Keyring.Proofs.Rsa.Blocks
import Keyring.Proofs.Rsa.Power
import Keyring.Proofs.Service.Calls
import Keyring.Proofs.Service.Clients
import Keyring.Proofs.Service.Drafts
import Keyring.Proofs.Service.Effects
import Keyring.Proofs.Service.Identity
import Keyring.Proofs.Service.Isolation
import Keyring.Proofs.Service.Ownership
import Keyring.Proofs.Service.Persistence
import Keyring.Proofs.Service.Registry
import Keyring.Proofs.Service.Release
import Keyring.Proofs.Service.Settings
import Keyring.Proofs.Service.Steps
import Keyring.Proofs.Service.Transforms
import Keyring.Proofs.Session.Answers
import Keyring.Proofs.Session.Backing
import Keyring.Proofs.Session.Certificates
import Keyring.Proofs.Session.Contract
import Keyring.Proofs.Session.Derivation
import Keyring.Proofs.Session.Encryption
import Keyring.Proofs.Session.Handle
import Keyring.Proofs.Session.Holdings
import Keyring.Proofs.Session.Journal
import Keyring.Proofs.Session.Misuse
import Keyring.Proofs.Session.Operations
import Keyring.Proofs.Session.Ownership
import Keyring.Proofs.Session.Released
import Keyring.Proofs.Session.Requests
import Keyring.Proofs.Session.RoundTrip
import Keyring.Proofs.Session.Scope
import Keyring.Proofs.Session.Sharing
import Keyring.Proofs.Session.Signatures
import Keyring.Proofs.Session.Signing
import Keyring.Proofs.Session.Staging
import Keyring.Proofs.Session.Succession
import Keyring.Proofs.Session.Vetting
import Keyring.Provider
import Keyring.Provider.Standard
import Keyring.Pss.Bits
import Keyring.Pss.Encoding
import Keyring.Pss.Mask
import Keyring.Pss.Padding
import Keyring.Rsa.Encryption
import Keyring.Rsa.Key
import Keyring.Rsa.Power
import Keyring.Rsa.PssParameters
import Keyring.Rsa.Signature
import Keyring.Service.Call
import Keyring.Service.Clients
import Keyring.Service.Keys
import Keyring.Service.Object
import Keyring.Service.Registry
import Keyring.Service.Transforms
import Keyring.Session.Encryption
import Keyring.Session.Handle
import Keyring.Session.Loading
import Keyring.Session.Request
import Keyring.Session.Scope
import Keyring.Session.Signing
import Keyring.Text.Hidden
import Keyring.Text.Quoted
import Keyring.Proofs.Pss.Value
import Keyring.Pss.Checked
import Keyring.Proofs.Pss.Checked
import Keyring.Proofs.Session.Raw
import Keyring.Proofs.Session.Verdicts
import Keyring.Proofs.Asn1.Oid
import Keyring.Proofs.Asn1.Canonical
import Keyring.Proofs.Asn1.Lenient
import Keyring.Proofs.Key.Naming
import Keyring.Proofs.Key.Modulus
import Keyring.Proofs.Session.Modulus
import Keyring.Proofs.Key.Outline
import Keyring.Proofs.Provider.Outlines
import Keyring.Proofs.Key.Idempotence
import Keyring.Proofs.Key.Written
import Keyring.Proofs.Pem.Base64
import Keyring.Proofs.Pem.Block
import Keyring.Proofs.Key.Forms
import Keyring.Proofs.Provider.Forms
import Keyring.Proofs.Key.Agreement
import Keyring.Proofs.Pss.Stream
import Keyring.Proofs.Session.Bundles
import Keyring.Proofs.Service.Ciphers
import Keyring.Proofs.Pem.Blanks
import Keyring.Proofs.Key.Blanks
import Keyring.Proofs.Pss.Unmasking
import Keyring.Proofs.Service.Capabilities
import Keyring.Proofs.Service.Abandoned
import Keyring.Proofs.Key.Failures
import Keyring.Proofs.Key.Passwords
import Keyring.Service.Cascade
import Keyring.Proofs.Service.Cascade
