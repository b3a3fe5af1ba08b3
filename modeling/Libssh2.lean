import Libssh2.Bytes
import Libssh2.Asn1.Der
import Libssh2.Asn1.Templates
import Libssh2.Framework
import Libssh2.SecM
import Libssh2.Import
import Libssh2.Import.Request
import Libssh2.Import.File
import Libssh2.Import.Paths
import Libssh2.Derive
import Libssh2.Derive.Conversion
import Libssh2.Derive.Soundness
import Libssh2.Signature
import Libssh2.Signature.Theorems
import Libssh2.Signature.Soundness
import Libssh2.Cipher
import Libssh2.Cipher.Session
import Libssh2.PublicKey
import Libssh2.PublicKey.Wire
import Libssh2.PublicKey.Extraction
import Libssh2.PublicKey.Soundness
