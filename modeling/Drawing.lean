import Drawing.Analysis.Report
import Drawing.Number.Exact
import Drawing.Proofs.Analysis.Account
import Drawing.Proofs.Analysis.Census
import Drawing.Proofs.Analysis.Clashes
import Drawing.Proofs.Analysis.Exact
import Drawing.Proofs.Analysis.Quiet
import Drawing.Proofs.Analysis.Recency
import Drawing.Proofs.Document.Bounds
import Drawing.Proofs.Document.Clean
import Drawing.Proofs.Document.Doubles
import Drawing.Proofs.Document.Kept
import Drawing.Proofs.Document.Pixels
import Drawing.Proofs.Document.Stretch
import Drawing.Proofs.Document.Text
import Drawing.Proofs.Layout.Fill
import Drawing.Proofs.Layout.Grid
import Drawing.Proofs.Layout.Instances
import Drawing.Proofs.Layout.Size
import Drawing.Proofs.Markup.Accepted
import Drawing.Proofs.Markup.Comments
import Drawing.Proofs.Markup.ReadBack
import Drawing.Proofs.Overlay.Build
import Drawing.Proofs.Path.Agreement
import Drawing.Proofs.Path.Foreign
import Drawing.Proofs.Path.Grammar
import Drawing.Proofs.Path.Reading
import Drawing.Proofs.Path.Replay
import Drawing.Proofs.Region.Lookup
import Drawing.Proofs.Region.Overlap
import Drawing.Proofs.Repair.Accepted
import Drawing.Proofs.Repair.Design
import Drawing.Proofs.Repair.Fresh
import Drawing.Proofs.Repair.Geometry
import Drawing.Proofs.Repair.Returns
import Drawing.Proofs.Repair.Twice
import Drawing.Proofs.Repair.Unreported
import Drawing.Proofs.Sketch.Page
import Drawing.Proofs.Studio.Clean
import Drawing.Proofs.Studio.Delivery
import Drawing.Proofs.Studio.Framed
import Drawing.Proofs.Studio.Isolation
import Drawing.Proofs.Studio.Retry
import Drawing.Proofs.Studio.Warnings
import Drawing.Proofs.Validation.Accepts
import Drawing.Proofs.Validation.Again
import Drawing.Proofs.Validation.Payload
import Drawing.Proofs.Validation.Strays
import Drawing.Proofs.Viewport.Similarity
import Drawing.Service.Listing
import Drawing.Service.Logging
import Drawing.Studio.Delivery
