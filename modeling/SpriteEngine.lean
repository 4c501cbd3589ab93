import SpriteEngine.Config.Reader
import SpriteEngine.Scene
import SpriteEngine.Proofs.Accounting
import SpriteEngine.Proofs.Bitmap
import SpriteEngine.Proofs.Descriptors
import SpriteEngine.Proofs.Display
import SpriteEngine.Proofs.Lifetime
import SpriteEngine.Proofs.Scenes
import SpriteEngine.Proofs.PaletteClients
import SpriteEngine.Proofs.Registry
import SpriteEngine.Proofs.DrawPass
import SpriteEngine.Proofs.StillScene
import SpriteEngine.Proofs.Reservations
import SpriteEngine.Proofs.Reloading
import SpriteEngine.Proofs.Layout
import SpriteEngine.Proofs.FirstFit
import SpriteEngine.Proofs.Covering
import SpriteEngine.Proofs.Drained
import SpriteEngine.Proofs.Ungrouped
import SpriteEngine.Proofs.Addressing
import SpriteEngine.Proofs.Playback
import SpriteEngine.Proofs.Scaling
import SpriteEngine.Proofs.ConfigText
import SpriteEngine.Proofs.Interleaving
