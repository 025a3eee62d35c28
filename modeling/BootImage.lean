import BootImage.Main
import BootImage.Proofs.Command.Digesting
import BootImage.Proofs.Command.Failing
import BootImage.Proofs.Command.FixedSignature
import BootImage.Proofs.Command.KeySelection
import BootImage.Proofs.Digest.Blocks
import BootImage.Proofs.Digest.Compression
import BootImage.Proofs.Digest.Streaming
import BootImage.Proofs.HexFile.Damage
import BootImage.Proofs.Image.Executable
import BootImage.Proofs.Image.Sizes
import BootImage.Proofs.Image.Verification
