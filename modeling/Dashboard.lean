import Dashboard.Layout.Session
import Dashboard.Main
import Dashboard.Proofs.Compile.Composition
import Dashboard.Proofs.Rebuild.Origins
import Dashboard.Proofs.Rebuild.Texts
import Dashboard.Proofs.Rebuild.Entities
import Dashboard.Proofs.Compile.Declared
import Dashboard.Proofs.Json.Answers
import Dashboard.Proofs.Json.Reading
import Dashboard.Proofs.Layout.Rebuilt
import Dashboard.Proofs.Compile.Refreshes
import Dashboard.Proofs.Compile.Flavors
import Dashboard.Proofs.Compile.Themes
import Dashboard.Proofs.Rebuild.Accounts
import Dashboard.Proofs.Rebuild.Placement
import Dashboard.Proofs.Rebuild.Extents
import Dashboard.Proofs.Rebuild.Structure
import Dashboard.Proofs.Compile.Components
import Dashboard.Proofs.Document.Sensors
import Dashboard.Proofs.Layout.Sessions
import Dashboard.Proofs.Compile.Unseen
import Dashboard.Proofs.Compile.Condensed
import Dashboard.Proofs.Kind.Prefixes
import Dashboard.Proofs.Compile.Arithmetic
import Dashboard.Proofs.Kind.Hints
import Dashboard.Proofs.Rebuild.Unreadable
import Dashboard.Proofs.Rebuild.Recovered
import Dashboard.Proofs.Resources.Names
import Dashboard.Proofs.Document.Comparisons
import Dashboard.Proofs.Kind.Labels
import Dashboard.Proofs.Rebuild.PageNames
import Dashboard.Proofs.Kind.Formats
import Dashboard.Proofs.Rebuild.Suppressed
import Dashboard.Proofs.Kind.Boxes
import Dashboard.Proofs.Marker.Handwritten
import Dashboard.Proofs.Document.Unambiguous
import Dashboard.Proofs.Document.DrawLists
import Dashboard.Proofs.CommandLine.Modes
import Dashboard.Proofs.Geometry.Inside
import Dashboard.Proofs.Rebuild.Joined
