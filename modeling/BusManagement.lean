import BusManagement.Client.Run
import BusManagement.Client.Text
import BusManagement.Proofs.Course.Client
import BusManagement.Property.Description.Json
import BusManagement.Simulation.Bench
import BusManagement.Simulation.Scripted
import BusManagement.Proofs.Silence
import BusManagement.Proofs.Answering
import BusManagement.Proofs.PropertyMap
import BusManagement.Proofs.Simulated
import BusManagement.Proofs.Positions
import BusManagement.Proofs.Correlation
import BusManagement.Proofs.Encoding
import BusManagement.Proofs.Resets
import BusManagement.Proofs.Discovery
import BusManagement.Proofs.Decoding
import BusManagement.Proofs.Notices
import BusManagement.Proofs.Interruption
import BusManagement.Proofs.Transmissions
import BusManagement.Proofs.Attachments
import BusManagement.Proofs.ListReading
import BusManagement.Proofs.Opening
import BusManagement.Proofs.Probing
import BusManagement.Proofs.Descriptions
import BusManagement.Proofs.Confirmation
import BusManagement.Proofs.Resumption
import BusManagement.Proofs.Increasing
import BusManagement.Proofs.WriteBack
import BusManagement.Proofs.Distinctness
import BusManagement.Proofs.Intake
import BusManagement.Proofs.Projection
import BusManagement.Proofs.Refusals
import BusManagement.Proofs.Recording
