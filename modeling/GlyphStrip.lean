import GlyphStrip.Main
import GlyphStrip.Disk.Edit
import GlyphStrip.Font.Dump
import GlyphStrip.OwnError
import GlyphStrip.Proofs.CommandLine.Previews
import GlyphStrip.Proofs.CommandLine.Sources
import GlyphStrip.Proofs.Destination
import GlyphStrip.Proofs.Font.Decoding
import GlyphStrip.Proofs.Font.Dump
import GlyphStrip.Proofs.Font.Order
import GlyphStrip.Proofs.Font.Standing
import GlyphStrip.Proofs.Messages
import GlyphStrip.Proofs.Preparation
import GlyphStrip.Proofs.Raster.Raw
import GlyphStrip.Proofs.Rerun
import GlyphStrip.Proofs.Storage
import GlyphStrip.Proofs.Strip.Difference
import GlyphStrip.Proofs.Strip.Painting
import GlyphStrip.Proofs.Strip.Trace
import GlyphStrip.Proofs.Strip.Truncation
import GlyphStrip.Proofs.Verbosity
